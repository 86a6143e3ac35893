import Habeny.Auth.Oidc
import Habeny.Auth.SignIn

/-!
# Single sign-on over time

Sign-ins through the identity provider, mixed with everything else that writes the users table.
A sign-in takes its flow out of the store first, so that its state is used up whatever happens
then.

The pattern for the username of a new account has a loophole: it accepts a line feed at the end.
Where no new account gets such a name (`NamesEndClean`), two identities never share an account,
an identity keeps its account and never reaches one with a password of its own, and the names of
the accounts are as documented and distinct.
-/

namespace Habeny.Auth

open Habeny.Lib

/-! ## The server -/

/-- A sign-in: the settings and the claims it was made with, the account, and the users table
after it. -/
structure SsoSignIn where
  cfg : OidcSettings
  claims : Claims
  account : UserRow
  after : Users

/-- The server with the pending flows, and a record of its history: the states of the flows that
were created and of those that were accepted, with the times, and the sign-ins, newest first. -/
structure SsoState where
  server : SignInState
  flows : Flows
  created : List (Text × ℤ)
  accepted : List (Text × ℤ)
  signIns : List SsoSignIn

/-- What the browser brings back from the identity provider, with the cookie that ties the
sign-in to it. -/
structure CallbackRequest where
  state : Text
  code : Text
  error : Text
  errorDescription : Text
  cookie : Text

def signInStale : OidcFault :=
  .refused "Sign-in expired or was started in another browser. Try again.".toList

def refusedThere (request : CallbackRequest) : OidcFault :=
  .refused ("Sign-in was refused by the identity provider: ".toList
    ++ if request.errorDescription = [] then request.error else request.errorDescription)

def noCode : OidcFault :=
  .refused "The identity provider didn't return an authorization code.".toList

namespace SsoState

variable (env : SignInEnv)

/-- A new installation. -/
def start (setupToken : Option Text) (now : ℤ) : SsoState :=
  { server := .start .empty setupToken now, flows := [], created := [], accepted := [],
    signIns := [] }

/-- Send the browser to the identity provider.  The flow is created at one time, and the store
is cleared of expired ones a little later. -/
def ssoLogin (s : SsoState) (state nonce verifier redirectUri : Text) (now later : ℤ) : SsoState :=
  { s with
    flows :=
      s.flows.create { state, nonce, verifier, redirectUri, expires := now + flowTtl } later
    created := (state, now) :: s.created }

/-- Take the flow of a callback out of the store. -/
def popFlow (s : SsoState) (state : Text) (now : ℤ) : Option Flow × SsoState :=
  if state = [] then (none, s)
  else
    ((s.flows.pop state now).1,
      { s with
        flows := (s.flows.pop state now).2
        accepted :=
          if (s.flows.pop state now).1.isSome then (state, now) :: s.accepted else s.accepted })

/-- Why a callback is refused before its code is exchanged. -/
def callbackRefusal (flow : Option Flow) (request : CallbackRequest) : Option OidcFault :=
  if flow.isNone ∨ request.cookie = [] then some signInStale
  else
    match compareDigest request.cookie request.state with
    | .error _ => some .raised
    | .ok false => some signInStale
    | .ok true =>
      if request.error ≠ [] then some (refusedThere request)
      else if request.code = [] then some noCode
      else none

/-- Sign a verified identity in. -/
def signInAs (s : SsoState) (cfg : OidcSettings) (claims : Claims) (created : ℤ)
    (sessionToken : Text) : Except OidcFault UserRow × SsoState :=
  match ssoAccount s.server.users cfg claims created with
  | (.error e, _) => (.error e, s)
  | (.ok user, users) =>
    (.ok user,
      { s with
        server := ({ s.server with users }).startSession env user.id sessionToken
        signIns := { cfg, claims, account := user, after := users } :: s.signIns })

/-- The identity provider sends the browser back; `exchanged` is what the exchange of the code
gives. -/
def ssoCallback (s : SsoState) (cfg : OidcSettings) (request : CallbackRequest) (now : ℤ)
    (exchanged : Except OidcFault Claims) (created : ℤ) (sessionToken : Text) :
    Except OidcFault UserRow × SsoState :=
  match callbackRefusal (s.popFlow request.state now).1 request with
  | some e => (.error e, (s.popFlow request.state now).2)
  | none =>
    match exchanged with
    | .error e => (.error e, (s.popFlow request.state now).2)
    | .ok claims => (s.popFlow request.state now).2.signInAs env cfg claims created sessionToken

end SsoState

/-! ## Steps -/

/-- What happens: a sign-in goes to the identity provider or comes back from it, an endpoint for
passwords and sessions is called, an account is added, gets another role or second factor or is
deleted, or the server starts anew, which keeps the database only. -/
inductive SsoAction where
  | login (state nonce verifier redirectUri : Text) (now later : ℤ)
  | callback (cfg : OidcSettings) (request : CallbackRequest) (now : ℤ)
      (exchanged : Except OidcFault Claims) (created : ℤ) (sessionToken : Text)
  | endpoint (a : SignInAction)
  | addUser (username passwordHash : Text) (role : Role) (created : ℤ)
  | updateUser (id : ℕ) (role : Role)
  | writeFactor (id : ℕ) (factor : FactorRow)
  | deleteUser (id : ℕ)
  | restart (setupToken : Option Text) (now : ℤ)

namespace SsoState

variable (env : SignInEnv) (issuer : Text)

/-- The server with another users table. -/
def withUsers (s : SsoState) (users : Users) : SsoState :=
  { s with server := { s.server with users } }

/-- A step, with the issuer that is configured. -/
def step (s : SsoState) : SsoAction → Option SsoState
  | .login state nonce verifier redirectUri now later =>
    some (s.ssoLogin state nonce verifier redirectUri now later)
  | .callback cfg request now exchanged created sessionToken =>
    if cfg.issuer = issuer then
      some (s.ssoCallback env cfg request now exchanged created sessionToken).2
    else none
  | .endpoint a => (s.server.step env a).map fun server => { s with server }
  | .addUser username hash role created =>
    some (s.withUsers (s.server.users.createUser username hash role created).2)
  | .updateUser id role => some (s.withUsers (s.server.users.setUserRole id role).2)
  | .writeFactor id factor =>
    some (s.withUsers
      (s.server.users.modify id (withFactor factor) (keepsKeys_withFactor factor)))
  | .deleteUser id => some (s.withUsers (s.server.users.deleteUser id).2)
  | .restart setupToken now =>
    some { s with
      flows := []
      server := { SignInState.start s.server.users setupToken now with
        sessions := s.server.sessions } }

/-! ## What is claimed of the history -/

/-- What single sign-on promises about accounts and flows, in one state of the server. -/
structure Identified (s : SsoState) : Prop where
  /-- Different subjects never sign in to one account. -/
  apart : ∀ x ∈ s.signIns, ∀ y ∈ s.signIns, x.account.id = y.account.id →
    x.claims.sub = y.claims.sub
  /-- No subject signs in to an account with a password of its own. -/
  noPassword : ∀ x ∈ s.signIns, x.account.passwordHash = Users.ssoOnlyPassword
  /-- While the account of a sign-in exists, later sign-ins of its subject reach it. -/
  same : ∀ later x earlier, s.signIns = later ++ x :: earlier →
    (∃ r ∈ s.server.users.rows, r.id = x.account.id) →
    ∀ y ∈ later, y.claims.sub = x.claims.sub → y.account.id = x.account.id
  /-- The names of single sign-on accounts are as documented, and no other account has one,
  whatever its case. -/
  usernames : ∀ r ∈ s.server.users.rows, r.oidcSubject.isSome = true →
    Documented r.username ∧
      ∀ r' ∈ s.server.users.rows, nocase r'.username = nocase r.username → r' = r
  /-- A sign-in leaves the account in the table, with the highest role that its groups are mapped
  to, unless the account is the only administrator. -/
  roles : ∀ x ∈ s.signIns, x.account ∈ x.after.rows ∧
    ∀ role, HighestMapped x.cfg x.claims role → x.account.role = role ∨
      x.account.isAdmin = true ∧ ∀ r ∈ x.after.rows, r.isAdmin = true → r = x.account
  /-- A state is accepted at most as often as a flow was created with it. -/
  once : ∀ state, s.accepted.countP (fun p => decide (p.1 = state))
    ≤ s.created.countP fun p => decide (p.1 = state)
  /-- It is accepted within the lifetime of such a flow. -/
  inTime : ∀ p ∈ s.accepted, ∃ q ∈ s.created, q.1 = p.1 ∧ p.2 < q.2 + flowTtl

/-- The condition under which that holds: a username that the pattern accepts for an identity
without an account does not end in a line feed. -/
def NamesEndClean (s : SsoState) : SsoAction → Prop
  | .callback cfg _ _ (.ok claims) _ _ =>
    s.server.users.bySubject (subjectKey cfg claims) = none →
      ∀ username, usernameFrom cfg claims = .ok username → username.getLast? ≠ some '\n'
  | _ => True

end SsoState

/-! ## What keeps identities -/

/-- A single sign-on account is managed by the identity provider, without a password of its own
and with a name as documented. -/
def Proper (r : UserRow) : Prop :=
  ∀ subject, r.oidcSubject = some subject →
    r.isSsoManaged = true ∧ r.passwordHash = Users.ssoOnlyPassword ∧ Documented r.username

lemma proper_of_none {r : UserRow} (h : r.oidcSubject = none) : Proper r :=
  fun subject hsubject => absurd (h.symm.trans hsubject) (by simp)

/-- No identity gets another account, name or password: a row is an old one, with its name and
identity, and its password if the identity provider manages it, or a proper new one. -/
structure KeepsIdentities (u u' : Users) : Prop where
  rows : ∀ r' ∈ u'.rows,
    (∃ r ∈ u.rows, r.id = r'.id ∧ r.username = r'.username ∧ r.oidcSubject = r'.oidcSubject ∧
      (r.isSsoManaged = true → r.passwordHash = r'.passwordHash)) ∨
    (Proper r' ∧ u.lastId < r'.id)
  lastId : u.lastId ≤ u'.lastId

namespace KeepsIdentities

lemma refl (u : Users) : KeepsIdentities u u :=
  ⟨fun r hr => .inl ⟨r, hr, rfl, rfl, rfl, fun _ => rfl⟩, le_rfl⟩

/-- A write into one row that leaves names alone, and also the passwords of managed accounts. -/
lemma modify {u : Users} {id : ℕ} {f : UserRow → UserRow} (hf : Users.KeepsKeys f)
    (hname : ∀ r, (f r).username = r.username)
    (hhash : ∀ r ∈ u.rows, r.id = id → r.isSsoManaged = true →
      (f r).passwordHash = r.passwordHash) :
    KeepsIdentities u (u.modify id f hf) := by
  refine ⟨fun r' hr' => .inl ?_, le_rfl⟩
  obtain ⟨r, hr, rfl⟩ := List.mem_map.mp hr'
  refine ⟨r, hr, (Users.writeAt_eq id hf.id r).symm, (Users.writeAt_eq id hname r).symm,
    (Users.writeAt_eq id hf.oidcSubject r).symm, fun hmanaged => ?_⟩
  unfold Users.writeAt
  split_ifs with hid
  · exact (hhash r hr hid hmanaged).symm
  · rfl

/-- A new row at the end, if it is proper. -/
lemma append {u u' : Users} {n : NewUser} (hproper : Proper (u.newRow n))
    (hrows : u'.rows = u.rows ++ [u.newRow n]) (hlast : u'.lastId = u.lastId + 1) :
    KeepsIdentities u u' := by
  refine ⟨fun r' hr' => ?_, by omega⟩
  rw [hrows, List.mem_append, List.mem_singleton] at hr'
  rcases hr' with hr' | rfl
  · exact (refl u).rows r' hr'
  · exact .inr ⟨hproper, Nat.lt_succ_self u.lastId⟩

lemma insert {u : Users} {n : NewUser} (hn : n.oidcSubject = none) :
    KeepsIdentities u (u.insert n).2 := by
  rcases hi : u.insert n with ⟨_ | r, u'⟩
  · have hsame : u' = u := by
      have hrefused := Users.insert_refused (u := u) (n := n) (by rw [hi]; rfl)
      rwa [hi] at hrefused
    rw [hsame]
    exact refl u
  · obtain ⟨-, hrows, hlast⟩ := Users.insert_some hi
    exact append (proper_of_none hn) hrows hlast

lemma updateRole (u : Users) (id : ℕ) (role : Role) : KeepsIdentities u (u.updateRole id role) :=
  modify (Users.keepsKeys_withRole role) (fun _ => rfl) fun _ _ _ _ => rfl

lemma setUserRole (u : Users) (id : ℕ) (role : Role) :
    KeepsIdentities u (u.setUserRole id role).2 := by
  unfold Users.setUserRole
  split_ifs
  · exact refl u
  · exact updateRole u id role

lemma deleteUser (u : Users) (id : ℕ) : KeepsIdentities u (u.deleteUser id).2 := by
  unfold Users.deleteUser
  split_ifs
  · exact refl u
  · exact ⟨fun r hr => (refl u).rows r (Users.mem_others.mp hr).1, le_rfl⟩

end KeepsIdentities

/-! ### The other endpoints -/

section Endpoints

variable {env : SignInEnv} {s : SignInState}

lemma setupAdmin_keeps (a : Attempt) (body : SetupRequest) (salt sessionToken : Text)
    (created : ℤ) :
    KeepsIdentities s.users (setupAdmin env s a body salt sessionToken created).2.users := by
  unfold setupAdmin
  by_cases hrows : s.users.rows ≠ []
  · rw [if_pos hrows]
    exact .refl s.users
  · rw [if_neg hrows]
    split_ifs with hthrough htoken
    · rcases policyRefusal env body.password body.username with _ | refusal
      · rcases hcreate : s.users.createFirstUser body.username
          (env.hashPassword salt body.password) created with ⟨_ | user, users⟩
        · exact .refl s.users
        · have hinsert := congrArg Prod.snd hcreate
          rw [Users.createFirstUser, if_neg (by simpa using hrows)] at hinsert
          rw [← show (s.users.insert _).2 = users from hinsert]
          exact .insert rfl
      · exact .refl s.users
    · exact .refl s.users
    · exact .refl s.users

lemma login_keeps (a : Attempt) (username password mfaToken sessionToken : Text) :
    KeepsIdentities s.users (login env s a username password mfaToken sessionToken).2.users := by
  unfold login
  split_ifs with hthrough
  · rcases s.users.byName username with _ | user
    · exact .refl s.users
    · simp only
      split_ifs <;> exact .refl s.users
  · exact .refl s.users

lemma loginSecondFactor_keeps (a : Attempt) (mfaToken code : Text) (wall : ℤ)
    (sessionToken : Text) :
    KeepsIdentities s.users
      (loginSecondFactor env s a mfaToken code wall sessionToken).2.users := by
  unfold loginSecondFactor
  split_ifs with hthrough
  · rcases challenged s a mfaToken with _ | ⟨c, user⟩
    · exact .refl s.users
    · simp only
      rcases checkSecondFactor env.toFactorEnv user.factor code wall user.factor with
        ⟨_ | _ | factor, row⟩
      · exact .refl s.users
      · exact .refl s.users
      · exact .modify (keepsKeys_withFactor row) (fun _ => rfl) fun _ _ _ _ => rfl
  · exact .refl s.users

/-- A password is written only for an account that the identity provider does not manage. -/
lemma updateUserPassword_keeps {u : Users} {id : ℕ} {hash : Text}
    (h : ∀ r, u.row id = some r → r.isSsoManaged = false) :
    KeepsIdentities u (updateUserPassword u id hash) := by
  refine .modify (keepsKeys_withPassword hash) (fun _ => rfl) fun r hr hid hmanaged => ?_
  rw [h r (Users.row_eq_some_iff.mpr ⟨hr, hid⟩)] at hmanaged
  exact absurd hmanaged (by simp)

lemma changeOwnPassword_keeps (userId : ℕ) (sessionToken current new salt : Text) :
    KeepsIdentities s.users
      (changeOwnPassword env s userId sessionToken current new salt).2.users := by
  unfold changeOwnPassword
  cases hrefusal : changeRefusal env (s.users.row userId) current new with
  | some refusal => exact .refl s.users
  | none =>
    refine updateUserPassword_keeps fun r hr => ?_
    simp only [changeRefusal, hr] at hrefusal
    split_ifs at hrefusal with hmanaged
    exact Bool.eq_false_iff.mpr hmanaged

lemma resetUserPassword_keeps (adminId targetId : ℕ) (new salt : Text) :
    KeepsIdentities s.users (resetUserPassword env s adminId targetId new salt).2.users := by
  unfold resetUserPassword
  cases hrefusal : resetRefusal env s adminId targetId new with
  | some refusal => exact .refl s.users
  | none =>
    refine updateUserPassword_keeps fun r hr => ?_
    rw [resetRefusal, Option.or_eq_none_iff, hr, Option.bind_some] at hrefusal
    have htarget := hrefusal.2
    split_ifs at htarget with hmanaged
    exact Bool.eq_false_iff.mpr hmanaged

/-- **No endpoint for passwords and sessions changes an identity.** -/
lemma SignInAction.run_keeps (a : SignInAction) :
    KeepsIdentities s.users (a.run env s).2.users := by
  cases a with
  | setup a body salt sessionToken created =>
    exact setupAdmin_keeps a body salt sessionToken created
  | login a username password mfaToken sessionToken =>
    exact login_keeps a username password mfaToken sessionToken
  | secondFactor a mfaToken code wall sessionToken =>
    exact loginSecondFactor_keeps a mfaToken code wall sessionToken
  | changePassword time userId sessionToken current new salt =>
    exact changeOwnPassword_keeps userId sessionToken current new salt
  | resetPassword time adminId targetId new salt =>
    exact resetUserPassword_keeps adminId targetId new salt
  | endSessions time adminId targetId =>
    simp only [SignInAction.run, endUserSessions]
    cases otherUserRefusal s adminId targetId <;> exact .refl s.users
  | endOtherSessions time userId sessionToken => exact .refl s.users

end Endpoints

/-! ## What a sign-in does -/

/-- What a sign-in leaves: the account of the identity, with the role of its groups. -/
structure Reached (cfg : OidcSettings) (claims : Claims) (groupRole : Option Role) (u u' : Users)
    (x : UserRow) : Prop where
  keeps : KeepsIdentities u u'
  mem : x ∈ u'.rows
  subject : x.oidcSubject = some (subjectKey cfg claims)
  role : ∀ role, groupRole = some role → x.role = role ∨
    x.isAdmin = true ∧ ∀ r ∈ u'.rows, r.isAdmin = true → r = x

/-- Besides the last administrator there is none. -/
lemma Users.eq_of_isLastAdmin {u : Users} {r r' : UserRow} (hr : r ∈ u.rows)
    (hlast : u.isLastAdmin r.id = true) (hr' : r' ∈ u.rows) (hadmin : r'.isAdmin = true) :
    r.isAdmin = true ∧ r' = r := by
  have hrow : u.row r.id = some r := Users.row_eq_some_iff.mpr ⟨hr, rfl⟩
  simp only [Users.isLastAdmin, hrow, Bool.and_eq_true, decide_eq_true_eq] at hlast
  refine ⟨hlast.1, ?_⟩
  by_contra hne
  have hsub : [r, r'] ⊆ u.rows.filter UserRow.isAdmin := by
    intro x hx
    simp only [List.mem_cons, List.not_mem_nil, or_false] at hx
    rcases hx with rfl | rfl
    · exact List.mem_filter.mpr ⟨hr, hlast.1⟩
    · exact List.mem_filter.mpr ⟨hr', hadmin⟩
  have htwo : [r, r'].Nodup := by simpa using fun h => hne h.symm
  have hle := (htwo.subperm hsub).length_le
  rw [← List.countP_eq_length_filter] at hle
  have hone := hlast.2
  rw [Users.adminCount] at hone
  simp only [List.length_cons, List.length_nil] at hle
  omega

lemma syncRole_reached {u : Users} {cfg : OidcSettings} {claims : Claims} {r : UserRow}
    (hr : r ∈ u.rows) (hsubject : r.oidcSubject = some (subjectKey cfg claims))
    (groupRole : Option Role) :
    Reached cfg claims groupRole u (syncRole u r groupRole).2 (syncRole u r groupRole).1 := by
  unfold syncRole
  cases groupRole with
  | none => exact ⟨.refl u, hr, hsubject, fun role h => absurd h (by simp)⟩
  | some role =>
    simp only
    split_ifs with hchange
    · -- the role was written
      have haccepted := hchange.2
      unfold Users.setUserRole at haccepted ⊢
      split_ifs at haccepted ⊢ with hlast
      have hmem : Users.withRole role r ∈ (u.updateRole r.id role).rows :=
        List.mem_map.mpr ⟨r, hr, by simp [Users.writeAt]⟩
      have hrow : (u.updateRole r.id role).row r.id = some (Users.withRole role r) :=
        Users.row_eq_some_iff.mpr ⟨hmem, rfl⟩
      simp only [hrow, Option.getD_some]
      exact ⟨.updateRole u r.id role, hmem, hsubject, fun _ h => .inl (Option.some.inj h)⟩
    · refine ⟨.refl u, hr, hsubject, fun role' h => ?_⟩
      obtain rfl := Option.some.inj h
      by_cases hsame : role = r.role
      · exact .inl hsame.symm
      · -- it was not, so that the account is the last administrator
        have hrefused : (u.setUserRole r.id role).1 ≠ true := fun h => hchange ⟨hsame, h⟩
        unfold Users.setUserRole at hrefused
        split_ifs at hrefused with hlast
        · refine .inr ⟨?_, fun r' hr' hadmin' => ?_⟩
          · have hrow : u.row r.id = some r := Users.row_eq_some_iff.mpr ⟨hr, rfl⟩
            have hadmin := hlast.2
            simp only [Users.isLastAdmin, hrow, Bool.and_eq_true] at hadmin
            exact hadmin.1
          · exact (Users.eq_of_isLastAdmin hr hlast.2 hr' hadmin').2
        · exact absurd rfl hrefused

/-- The name of a new account is documented if it does not end in a line feed. -/
lemma documented_of_usernameFrom {cfg : OidcSettings} {claims : Claims} {username : Text}
    (h : usernameFrom cfg claims = .ok username) (hend : username.getLast? ≠ some '\n') :
    Documented username := by
  unfold usernameFrom at h
  cases hvalue : usernameValue cfg claims with
  | text name =>
    simp only [hvalue] at h
    split_ifs at h with hmatches
    obtain rfl := Except.ok.inj h
    exact documented_of_matches hmatches hend
  | list items | other counts =>
    rw [hvalue] at h
    exact absurd h (by simp)

lemma Reaches.reached {u u' : Users} {cfg : OidcSettings} {claims : Claims} {created : ℤ}
    {groupRole : Option Role} {x : UserRow} (h : Reaches u cfg claims created groupRole x u')
    (hclean : u.bySubject (subjectKey cfg claims) = none →
      ∀ username, usernameFrom cfg claims = .ok username → username.getLast? ≠ some '\n') :
    Reached cfg claims groupRole u u' x := by
  cases h with
  | found hr hsubject => exact syncRole_reached hr hsubject groupRole
  | @new username _ hnone hname hinsert hrows hlast =>
    have hdocumented := documented_of_usernameFrom hname (hclean hnone username hname)
    refine ⟨.append ?_ hrows hlast, ?_, rfl, fun role hrole => .inl ?_⟩
    · intro subject hsubject
      refine ⟨?_, rfl, hdocumented⟩
      -- the key has at least the bar between issuer and subject
      simp [UserRow.isSsoManaged, Users.newRow, ssoUser, subjectKey]
    · rw [hrows]
      exact List.mem_append_right _ (List.mem_singleton_self _)
    · simp [Users.newRow, ssoUser, hrole]

/-! ## The invariant -/

namespace SsoState

/-- The accounts of single sign-on are proper, and where the account of an earlier sign-in still
exists it is its subject's. -/
structure Linked (issuer : Text) (s : SsoState) : Prop where
  proper : ∀ r ∈ s.server.users.rows, Proper r
  known : ∀ x ∈ s.signIns, x.account.id ≤ s.server.users.lastId ∧
    ∀ r ∈ s.server.users.rows, r.id = x.account.id →
      r.oidcSubject = some (issuer ++ '|' :: x.claims.sub)

/-- Every flow that was created is pending or was accepted at most once. -/
structure FlowsOnce (s : SsoState) : Prop where
  once : ∀ state, s.accepted.countP (fun p => decide (p.1 = state))
    + s.flows.countP (fun f => decide (f.state = state))
    ≤ s.created.countP fun p => decide (p.1 = state)
  pending : ∀ f ∈ s.flows, ∃ q ∈ s.created, q.1 = f.state ∧ f.expires = q.2 + flowTtl

structure Sound (issuer : Text) (s : SsoState) : Prop where
  linked : Linked issuer s
  flowsOnce : FlowsOnce s
  identified : Identified s

lemma sound_start (issuer : Text) (setupToken : Option Text) (now : ℤ) :
    Sound issuer (start setupToken now) where
  linked := ⟨fun r hr => absurd hr List.not_mem_nil, fun x hx => absurd hx List.not_mem_nil⟩
  flowsOnce := ⟨fun state => le_rfl, fun f hf => absurd hf List.not_mem_nil⟩
  identified :=
    { apart := fun x hx => absurd hx List.not_mem_nil
      noPassword := fun x hx => absurd hx List.not_mem_nil
      same := fun later x earlier h => absurd h.symm (by simp [start])
      usernames := fun r hr => absurd hr List.not_mem_nil
      roles := fun x hx => absurd hx List.not_mem_nil
      once := fun state => le_rfl
      inTime := fun p hp => absurd hp List.not_mem_nil }

section Steps

variable {env : SignInEnv} {issuer : Text} {s s' : SsoState}

lemma Linked.keep (h : Linked issuer s) (hkeeps : KeepsIdentities s.server.users s'.server.users)
    (hsignIns : s'.signIns = s.signIns) : Linked issuer s' := by
  refine ⟨fun r' hr' subject hsubject => ?_, fun x hx => ?_⟩
  · rcases hkeeps.rows r' hr' with ⟨r, hr, -, hname, hsame, hhash⟩ | ⟨hproper, -⟩
    · obtain ⟨hmanaged, hsso, hdocumented⟩ := h.proper r hr subject (hsame.trans hsubject)
      refine ⟨?_, ?_, hname ▸ hdocumented⟩
      · rwa [UserRow.isSsoManaged, ← hsame]
      · rw [← hhash hmanaged, hsso]
    · exact hproper subject hsubject
  · rw [hsignIns] at hx
    obtain ⟨hle, hrows⟩ := h.known x hx
    refine ⟨hle.trans hkeeps.lastId, fun r' hr' hid => ?_⟩
    rcases hkeeps.rows r' hr' with ⟨r, hr, hsameId, -, hsame, -⟩ | ⟨-, hlt⟩
    · rw [← hsame]
      exact hrows r hr (hsameId.trans hid)
    · -- ids are never used again
      omega

/-- Names differ, and the names of single sign-on accounts are as documented. -/
lemma Linked.usernames (h : Linked issuer s) : ∀ r ∈ s.server.users.rows,
    r.oidcSubject.isSome = true → Documented r.username ∧
      ∀ r' ∈ s.server.users.rows, nocase r'.username = nocase r.username → r' = r := by
  intro r hr hsome
  obtain ⟨subject, hsubject⟩ := Option.isSome_iff_exists.mp hsome
  refine ⟨(h.proper r hr subject hsubject).2.2, fun r' hr' hname => ?_⟩
  exact List.inj_on_of_nodup_map s.server.users.names_nodup hr' hr hname

/-- A step that signs nobody in and at most drops flows. -/
lemma Sound.keep (h : Sound issuer s)
    (hkeeps : KeepsIdentities s.server.users s'.server.users) (hsignIns : s'.signIns = s.signIns)
    (hcreated : s'.created = s.created) (haccepted : s'.accepted = s.accepted)
    (hflows : s'.flows.Sublist s.flows) : Sound issuer s' := by
  have hlinked := h.linked.keep hkeeps hsignIns
  refine ⟨hlinked, ⟨fun state => ?_, fun f hf => ?_⟩, ?_⟩
  · rw [hcreated, haccepted]
    have hle := hflows.countP_le (p := fun f => decide (f.state = state))
    have honce := h.flowsOnce.once state
    omega
  · rw [hcreated]
    exact h.flowsOnce.pending f (hflows.subset hf)
  · exact
      { apart := hsignIns ▸ h.identified.apart
        noPassword := hsignIns ▸ h.identified.noPassword
        same := by
          rw [hsignIns]
          rintro later x earlier hsplit ⟨r', hr', hid⟩
          refine h.identified.same later x earlier hsplit ?_
          rcases hkeeps.rows r' hr' with ⟨r, hr, hsameId, -⟩ | ⟨-, hlt⟩
          · exact ⟨r, hr, hsameId.trans hid⟩
          · have hx := (h.linked.known x (by rw [hsplit]; simp)).1
            omega
        usernames := hlinked.usernames
        roles := hsignIns ▸ h.identified.roles
        once := by rw [hcreated, haccepted]; exact h.identified.once
        inTime := by rw [hcreated, haccepted]; exact h.identified.inTime }

/-- A new flow. -/
lemma Sound.login (h : Sound issuer s) (state nonce verifier redirectUri : Text)
    (now later : ℤ) : Sound issuer (s.ssoLogin state nonce verifier redirectUri now later) := by
  have hothers : (Flows.others (s.flows.filter fun f => decide (later < f.expires)) state).Sublist
      s.flows := List.filter_sublist.trans List.filter_sublist
  refine ⟨⟨h.linked.proper, h.linked.known⟩, ⟨fun other => ?_, fun f hf => ?_⟩, ?_⟩
  · have honce := h.flowsOnce.once other
    have hle := hothers.countP_le (p := fun f => decide (f.state = other))
    simp only [ssoLogin, Flows.create, List.countP_append, List.countP_cons, List.countP_nil]
    split_ifs with hsame <;> omega
  · rcases List.mem_append.mp hf with hf | hf
    · obtain ⟨q, hq, hstate, hexpires⟩ := h.flowsOnce.pending f (hothers.subset hf)
      exact ⟨q, List.mem_cons_of_mem _ hq, hstate, hexpires⟩
    · rw [List.mem_singleton.mp hf]
      exact ⟨(state, now), List.mem_cons_self, rfl, rfl⟩
  · exact
      { apart := h.identified.apart
        noPassword := h.identified.noPassword
        same := h.identified.same
        usernames := h.identified.usernames
        roles := h.identified.roles
        once := fun other =>
          (h.identified.once other).trans (List.sublist_cons_self _ _).countP_le
        inTime := fun p hp =>
          let ⟨q, hq, hstate, htime⟩ := h.identified.inTime p hp
          ⟨q, List.mem_cons_of_mem _ hq, hstate, htime⟩ }

/-- Taking out a flow leaves no other of its state. -/
lemma countP_others (flows : Flows) (state other : Text) :
    (flows.others state).countP (fun f => decide (f.state = other))
      = if other = state then 0 else flows.countP fun f => decide (f.state = other) := by
  rw [Flows.others, List.countP_filter]
  split_ifs with hsame
  · subst hsame
    exact List.countP_eq_zero.mpr fun f _ => by simp
  · refine List.countP_congr fun f _ => ?_
    simp only [Bool.and_eq_true, decide_eq_true_eq, and_iff_left_iff_imp]
    rintro rfl
    exact hsame

lemma Flows.pop_some {flows : Flows} {state : Text} {now : ℤ} {f : Flow}
    (h : (flows.pop state now).1 = some f) : f ∈ flows ∧ f.state = state ∧ now < f.expires := by
  obtain ⟨hfound, hopen⟩ := Option.filter_eq_some_iff.mp h
  refine ⟨List.mem_of_find?_eq_some hfound, by simpa using List.find?_some hfound, ?_⟩
  simpa using hopen

/-- Taking the flow of a callback out: a flow that was created and not accepted yet is accepted
in time. -/
lemma Sound.popFlow (h : Sound issuer s) (state : Text) (now : ℤ) :
    Sound issuer (s.popFlow state now).2 := by
  unfold SsoState.popFlow
  by_cases hempty : state = []
  · rw [if_pos hempty]
    exact h
  rw [if_neg hempty]
  cases hpop : (s.flows.pop state now).1 with
  | none =>
    simp only [Option.isSome_none, Bool.false_eq_true, if_false]
    exact Sound.keep h (KeepsIdentities.refl _) rfl rfl rfl List.filter_sublist
  | some f =>
    obtain ⟨hf, hstate, hopen⟩ := Flows.pop_some hpop
    simp only [Option.isSome_some, if_true]
    have hmore : ∀ other, ((state, now) :: s.accepted).countP (fun p => decide (p.1 = other))
        + (s.flows.others state).countP (fun f => decide (f.state = other))
        ≤ s.created.countP fun p => decide (p.1 = other) := by
      intro other
      have honce := h.flowsOnce.once other
      rw [countP_others, List.countP_cons]
      by_cases hsame : other = state
      · subst hsame
        have hpos : 0 < s.flows.countP fun f => decide (f.state = other) :=
          List.countP_pos_iff.mpr ⟨f, hf, by simpa using hstate⟩
        simp only [decide_true, if_true]
        omega
      · simp only [hsame, if_false, decide_eq_true_eq, Ne.symm hsame]
        omega
    refine ⟨⟨h.linked.proper, h.linked.known⟩, ⟨hmore, fun g hg => ?_⟩, ?_⟩
    · exact h.flowsOnce.pending g (List.mem_of_mem_filter hg)
    · exact
        { apart := h.identified.apart
          noPassword := h.identified.noPassword
          same := h.identified.same
          usernames := h.identified.usernames
          roles := h.identified.roles
          once := fun other => (Nat.le_add_right _ _).trans (hmore other)
          inTime := by
            intro p hp
            rcases List.mem_cons.mp hp with rfl | hp
            · obtain ⟨q, hq, hqstate, hexpires⟩ := h.flowsOnce.pending f hf
              exact ⟨q, hq, hqstate.trans hstate, hexpires ▸ hopen⟩
            · exact h.identified.inTime p hp }

/-- An earlier sign-in to an account of an identity was that identity's. -/
lemma Linked.sub_eq (h : Linked issuer s) {x : UserRow} (hx : x ∈ s.server.users.rows) {sub : Text}
    (hsubject : x.oidcSubject = some (issuer ++ '|' :: sub)) {y : SsoSignIn} (hy : y ∈ s.signIns)
    (hid : y.account.id = x.id) : y.claims.sub = sub := by
  have hown := (h.known y hy).2 x hx hid.symm
  rw [hsubject] at hown
  exact (List.cons.inj (List.append_cancel_left (Option.some.inj hown))).2.symm

/-- A sign-in to an account of its own identity. -/
lemma Linked.signIn (h : Linked issuer { s' with signIns := s.signIns }) {x : SsoSignIn}
    (hsignIns : s'.signIns = x :: s.signIns) (hmem : x.account ∈ s'.server.users.rows)
    (hsubject : x.account.oidcSubject = some (issuer ++ '|' :: x.claims.sub)) :
    Linked issuer s' := by
  refine ⟨h.proper, fun y hy => ?_⟩
  rw [hsignIns] at hy
  rcases List.mem_cons.mp hy with rfl | hy
  · refine ⟨s'.server.users.ids_le y.account hmem, fun r hr hid => ?_⟩
    rw [s'.server.users.eq_of_id_eq hr hmem hid]
    exact hsubject
  · exact h.known y hy

/-- A verified identity is signed in. -/
lemma Sound.signIn (h : Sound issuer s) {cfg : OidcSettings} {claims : Claims}
    (hissuer : cfg.issuer = issuer) {groupRole : Option Role}
    (hrole : roleFrom cfg claims = .ok groupRole) {u' : Users} {x : UserRow}
    (hreached : Reached cfg claims groupRole s.server.users u' x)
    (husers : s'.server.users = u')
    (hsignIns : s'.signIns = { cfg, claims, account := x, after := u' } :: s.signIns)
    (hcreated : s'.created = s.created) (haccepted : s'.accepted = s.accepted)
    (hflows : s'.flows = s.flows) : Sound issuer s' := by
  subst husers
  -- first the table, then the sign-in
  have hkept : Sound issuer { s' with signIns := s.signIns } :=
    h.keep hreached.keeps rfl hcreated haccepted (hflows ▸ List.Sublist.refl _)
  have hkey : subjectKey cfg claims = issuer ++ '|' :: claims.sub := by rw [subjectKey, hissuer]
  have hsubject : x.oidcSubject = some (issuer ++ '|' :: claims.sub) := hkey ▸ hreached.subject
  have hlinked : Linked issuer s' := hkept.linked.signIn hsignIns hreached.mem hsubject
  have hsameSubject : ∀ y ∈ s.signIns, y.account.id = x.id → y.claims.sub = claims.sub :=
    fun _ hy hid => hkept.linked.sub_eq hreached.mem hsubject hy hid
  refine ⟨hlinked, ⟨hkept.flowsOnce.once, hkept.flowsOnce.pending⟩, ?_⟩
  exact
    { apart := by
        rw [hsignIns]
        intro y hy z hz hid
        rcases List.mem_cons.mp hy with rfl | hy
        · rcases List.mem_cons.mp hz with rfl | hz
          · rfl
          · exact (hsameSubject z hz hid.symm).symm
        · rcases List.mem_cons.mp hz with rfl | hz
          · exact hsameSubject y hy hid
          · exact h.identified.apart y hy z hz hid
      noPassword := by
        rw [hsignIns]
        intro y hy
        rcases List.mem_cons.mp hy with rfl | hy
        · exact (hkept.linked.proper x hreached.mem _ hsubject).2.1
        · exact h.identified.noPassword y hy
      same := by
        rw [hsignIns]
        rintro later y earlier hsplit ⟨r, hr, hid⟩ z hz hsub
        rcases later with _ | ⟨newest, later⟩
        · exact absurd hz List.not_mem_nil
        · obtain ⟨rfl, hrest⟩ := List.cons.inj hsplit
          rw [List.append_eq] at hrest
          have hy : y ∈ s.signIns := by rw [hrest]; simp
          rcases List.mem_cons.mp hz with rfl | hz
          · -- the account of the earlier sign-in is the identity's, and there is only one
            have hown := (hkept.linked.known y hy).2 r hr hid
            rw [← show claims.sub = y.claims.sub from hsub] at hown
            rw [← hid, s'.server.users.eq_of_oidcSubject_eq hr hreached.mem hown hsubject]
          · exact hkept.identified.same later y earlier hrest ⟨r, hr, hid⟩ z hz hsub
      usernames := hlinked.usernames
      roles := by
        rw [hsignIns]
        intro y hy
        rcases List.mem_cons.mp hy with rfl | hy
        · refine ⟨hreached.mem, fun role hhighest => hreached.role role ?_⟩
          rw [← Except.ok.injEq, ← hrole]
          exact roleFrom_eq_some_iff.mpr hhighest
        · exact h.identified.roles y hy
      once := hkept.identified.once
      inTime := hkept.identified.inTime }

/-- Every step that gives no new account a name that ends in a line feed. -/
lemma step_sound {a : SsoAction} (h : Sound issuer s) (hclean : NamesEndClean s a)
    (hstep : step env issuer s a = some s') : Sound issuer s' := by
  cases a with
  | login state nonce verifier redirectUri now later =>
    obtain rfl := Option.some.inj hstep
    exact h.login state nonce verifier redirectUri now later
  | callback cfg request now exchanged created sessionToken =>
    simp only [step] at hstep
    split_ifs at hstep with hissuer
    obtain rfl := Option.some.inj hstep
    have hpopped := h.popFlow request.state now
    have husers : (s.popFlow request.state now).2.server = s.server := by
      unfold popFlow
      split_ifs <;> rfl
    unfold ssoCallback
    rcases callbackRefusal (s.popFlow request.state now).1 request with _ | e
    · rcases exchanged with e | claims
      · exact hpopped
      · simp only [signInAs]
        rw [husers]
        rcases haccount : ssoAccount s.server.users cfg claims created with ⟨e | x, u'⟩
        · exact hpopped
        · obtain ⟨groupRole, hrole, hreaches⟩ := ssoAccount_ok haccount
          have hreached := hreaches.reached hclean
          rw [← husers] at hreached
          exact hpopped.signIn hissuer hrole hreached rfl rfl rfl rfl rfl
    · exact hpopped
  | endpoint a =>
    obtain ⟨server, hserver, rfl⟩ := Option.map_eq_some_iff.mp hstep
    obtain ⟨-, rfl⟩ := SignInState.step_eq hserver
    exact h.keep (SignInAction.run_keeps a) rfl rfl rfl (List.Sublist.refl _)
  | addUser username hash role created =>
    obtain rfl := Option.some.inj hstep
    exact h.keep (.insert rfl) rfl rfl rfl (List.Sublist.refl _)
  | updateUser id role =>
    obtain rfl := Option.some.inj hstep
    exact h.keep (.setUserRole _ id role) rfl rfl rfl (List.Sublist.refl _)
  | writeFactor id factor =>
    obtain rfl := Option.some.inj hstep
    exact h.keep (.modify (keepsKeys_withFactor factor) (fun _ => rfl) fun _ _ _ _ => rfl) rfl rfl
      rfl (List.Sublist.refl _)
  | deleteUser id =>
    obtain rfl := Option.some.inj hstep
    exact h.keep (.deleteUser _ id) rfl rfl rfl (List.Sublist.refl _)
  | restart setupToken now =>
    obtain rfl := Option.some.inj hstep
    exact h.keep (.refl _) rfl rfl rfl (List.nil_sublist _)

/-- **Single sign-on keeps identities apart.**  In every run from a new installation in which no
new account gets a name that ends in a line feed, accounts and flows are as promised in every
state. -/
theorem identities_kept {setupToken : Option Text} {now : ℤ} {as : List SsoAction}
    (hrun : Run (step env issuer) NamesEndClean (start setupToken now) as s) : Identified s :=
  (hrun.invariant (P := Sound issuer) (fun hs hclean hstep => step_sound hs hclean hstep)
    (sound_start issuer setupToken now)).identified

end Steps

/-! ## A provider and its users -/

/-- A provider that maps no groups. -/
def sampleOidc : OidcSettings :=
  { issuer := "https://idp".toList, usernameClaim := "preferred_username".toList,
    groupsClaim := "groups".toList, roleGroups := fun _ => [], defaultRole := .viewer }

/-- A subject with a username. -/
def claimsOf (sub username : Text) : Claims :=
  { sub, others := fun name =>
      if name = "preferred_username".toList then some (.text username) else none }

/-- Somebody goes to the provider and comes back in the same browser, with these claims. -/
def signsIn (state : Text) (claims : Claims) : List SsoAction :=
  [.login state [] [] [] 0 0,
   .callback sampleOidc { state, code := "code".toList, error := [], errorDescription := [],
                          cookie := state } 1 (.ok claims) 0 "session".toList]

/-- There is a local account, and a subject with nearly its name signs in. -/
def lookAlike : List SsoAction :=
  .addUser "alice".toList "scrypt$right".toList .operator 0 ::
    signsIn "state".toList (claimsOf "7".toList "alice\n".toList)

lemma lookAlike_rows :
    (exec (step sampleSignIn sampleOidc.issuer) (start none 0) lookAlike).map
      (fun s => s.server.users.rows.map fun r => (r.username, r.oidcSubject.isSome))
      = some [("alice".toList, false), ("alice\n".toList, true)] := by
  decide +kernel

/-- **The pattern accepts a line feed at the end of a name.**  The new account is called `alice`
with a line feed, next to the local account `alice`. -/
theorem identities_not_kept :
    ∃ s, Run (step sampleSignIn sampleOidc.issuer) anyStep (start none 0) lookAlike s ∧
      ¬Identified s := by
  obtain ⟨s, hs, hrows⟩ := Option.map_eq_some_iff.mp lookAlike_rows
  refine ⟨s, run_of_exec hs, fun h => ?_⟩
  have hmem : ("alice\n".toList, true) ∈
      s.server.users.rows.map fun r => (r.username, r.oidcSubject.isSome) := by
    rw [hrows]
    decide +kernel
  obtain ⟨r, hr, heq⟩ := List.mem_map.mp hmem
  rw [Prod.mk.injEq] at heq
  have hchars := (h.usernames r hr heq.2).1.chars '\n'
  rw [heq.1] at hchars
  exact absurd (hchars (by decide +kernel)) (by decide)

/-- Whether a step gives no new account a name that ends in a line feed. -/
def endsClean (_ : SsoState) : SsoAction → Bool
  | .callback cfg _ _ (.ok claims) _ _ =>
    match usernameFrom cfg claims with
    | .ok username => decide (username.getLast? ≠ some '\n')
    | .error _ => true
  | _ => true

lemma namesEndClean_of_endsClean (s : SsoState) (a : SsoAction) (h : endsClean s a = true) :
    NamesEndClean s a := by
  cases a with
  | callback cfg request now exchanged created sessionToken =>
    cases exchanged with
    | error e => trivial
    | ok claims =>
      intro _ username hname
      simpa [endsClean, hname] using h
  | _ => trivial

/-- Two subjects sign in, the first of them twice. -/
def twoSubjects : List SsoAction :=
  signsIn "state1".toList (claimsOf "7".toList "alice@example.org".toList)
    ++ signsIn "state2".toList (claimsOf "8".toList "bob".toList)
    ++ signsIn "state3".toList (claimsOf "7".toList "alice@example.org".toList)

theorem identities_kept_twoSubjects :
    ∃ s, exec (step sampleSignIn sampleOidc.issuer) (start none 0) twoSubjects = some s ∧
      s.signIns.map (fun x => x.account.id) = [1, 2, 1] ∧ Identified s := by
  have hids : (exec (step sampleSignIn sampleOidc.issuer) (start none 0) twoSubjects).map
      (fun s => s.signIns.map fun x => x.account.id) = some [1, 2, 1] := by decide +kernel
  obtain ⟨s, hs, hids⟩ := Option.map_eq_some_iff.mp hids
  have hrun := run_of_execMeets namesEndClean_of_endsClean hs (by decide +kernel)
  exact ⟨s, hs, hids, identities_kept hrun⟩

end SsoState

end Habeny.Auth
