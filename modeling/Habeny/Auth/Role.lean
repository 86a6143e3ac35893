import Habeny.Lib.Text
import Mathlib.Order.Lattice
import Mathlib.Order.Defs.LinearOrder

/-!
# Roles and the checks on them

A request carries the record of a user, read from a session cookie or from an API token, and
the routers ask that record for a role: `requireAccess` for the role the request needs,
`requireAdmin` for the administrator's, `requireSession` for a browser session.  An account
keeps its privilege in two places, its role and its `isAdmin` flag, and the two agree
(`Account`); the record of a request is just a record (`User`).
-/

namespace Habeny.Auth

open Habeny.Lib

/-- The roles, lowest first (`ROLES`). -/
inductive Role where
  | viewer
  | operator
  | admin
  deriving DecidableEq

/-- The position of a role in `ROLES` (`_RANK`). -/
def Role.rank : Role → ℕ
  | .viewer => 0
  | .operator => 1
  | .admin => 2

lemma Role.rank_injective : Function.Injective Role.rank := by
  intro a b h
  cases a <;> cases b <;> first | rfl | exact absurd h (by decide)

instance : LinearOrder Role := LinearOrder.lift' Role.rank Role.rank_injective

lemma Role.viewer_le (r : Role) : Role.viewer ≤ r := by cases r <;> decide

lemma Role.le_admin (r : Role) : r ≤ Role.admin := by cases r <;> decide

lemma Role.admin_le_iff {r : Role} : Role.admin ≤ r ↔ r = Role.admin :=
  ⟨fun h => le_antisymm r.le_admin h, fun h => h ▸ le_rfl⟩

lemma Role.operator_le_of_ne_viewer {r : Role} (h : r ≠ .viewer) : Role.operator ≤ r := by
  cases r
  · exact absurd rfl h
  · decide
  · decide

/-- The name of a role, as it stands in the database and in error texts. -/
def Role.name : Role → Text
  | .viewer => "viewer".toList
  | .operator => "operator".toList
  | .admin => "admin".toList

/-- How a request authenticated. -/
inductive AuthKind where
  | session
  | token
  deriving DecidableEq

/-- The user record of a request. -/
structure User where
  id : ℕ
  username : Text
  role : Role
  isAdmin : Bool
  teamId : Option ℕ
  auth : AuthKind
  deriving DecidableEq

/-- An account, as its sessions see it: the flag and the role agree, since every write of
one is a write of both. -/
structure Account where
  id : ℕ
  username : Text
  role : Role
  isAdmin : Bool
  teamId : Option ℕ
  isAdmin_iff : isAdmin = true ↔ role = .admin

/-- The user record of a browser session of an account (`get_session_user`). -/
def sessionUser (a : Account) : User :=
  { id := a.id, username := a.username, role := a.role, isAdmin := a.isAdmin,
    teamId := a.teamId, auth := .session }

/-- The user record of an API token of an account: the role is the lower of the token's and
the account's (`token_user`). -/
def tokenUser (a : Account) (tokenRole : Role) : User :=
  { id := a.id, username := a.username, role := min tokenRole a.role, isAdmin := a.isAdmin,
    teamId := a.teamId, auth := .token }

@[simp] lemma tokenUser_role (a : Account) (r : Role) : (tokenUser a r).role = min r a.role := rfl

@[simp] lemma tokenUser_isAdmin (a : Account) (r : Role) : (tokenUser a r).isAdmin = a.isAdmin := rfl

/-! ## Requests -/

/-- The method of an HTTP request. -/
inductive Method where
  | get
  | head
  | options
  | post
  | put
  | patch
  | delete
  | other (name : Text)
  deriving DecidableEq

/-- What the checks read of a connection: its path after the prefix is stripped, and its
method or whether its `Origin` is this server's (`_same_origin`). -/
inductive Conn where
  | http (method : Method) (path : Text)
  | websocket (path : Text) (sameOrigin : Bool)
  deriving DecidableEq

/-- A check's refusal: an HTTP error, or a WebSocket close. -/
inductive Refusal where
  | http (status : ℕ) (detail : Text)
  | websocket (code : ℕ) (reason : Text)
  deriving DecidableEq

/-- Refuse a connection in its own protocol. -/
def Conn.refuse : Conn → ℕ → Text → ℕ → Text → Refusal
  | .http _ _, status, detail, _, _ => .http status detail
  | .websocket _ _, _, _, code, reason => .websocket code reason

/-- POST endpoints that only read. -/
def readOnlyPosts : List Text := ["/benchmarks/compare".toList]

/-- Methods that only read. -/
def Method.reads (m : Method) : Bool := decide (m = .get ∨ m = .head ∨ m = .options)

/-- A WebSocket path that leads to a console, here or on another host. -/
def isConsolePath (path : Text) : Bool :=
  "/ws/console".toList.isPrefixOf path || Text.occursIn "/ws/console/".toList path

/-- The role a connection needs. -/
def Conn.needed : Conn → Role
  | .websocket path _ => if isConsolePath path then .operator else .viewer
  | .http method path =>
    if method.reads = true ∨ path ∈ readOnlyPosts then .viewer else .operator

/-! ## Checks -/

def hasRole (user : User) (minimum : Role) : Bool := decide (minimum ≤ user.role)

/-- Signed in, and from this origin when it is a WebSocket. -/
def requireUser (conn : Conn) (user : Option User) : Except Refusal User :=
  match conn, user with
  | .websocket _ true, some u => .ok u
  | .http _ _, some u => .ok u
  | conn, _ => .error (conn.refuse 401 "Not authenticated".toList 1008 "Not authenticated".toList)

/-- The refusal that names the role a connection needs (`_forbidden`). -/
def forbidden (conn : Conn) (needed : Role) : Refusal :=
  conn.refuse 403 ("This needs the ".toList ++ needed.name ++ " role".toList)
    1008 (needed.name ++ " role required".toList)

/-- The refusal of a change while the server shuts down. -/
def restarting (conn : Conn) : Refusal :=
  conn.refuse 503 "Habeny is restarting. Try again in a minute.".toList
    1012 "Habeny is restarting".toList

/-- The router-wide check: signed in, with the role the connection needs, and no change while
the server shuts down. -/
def requireAccess (shuttingDown : Bool) (conn : Conn) (user : Option User) :
    Except Refusal User := do
  let u ← requireUser conn user
  if ¬hasRole u conn.needed then .error (forbidden conn conn.needed)
  else if conn.needed = .operator ∧ shuttingDown then .error (restarting conn)
  else .ok u

/-- Only from a browser session. -/
def requireSession (conn : Conn) (user : Option User) : Except Refusal User := do
  let u ← requireUser conn user
  if u.auth = .token then
    .error (.http 403
      "Account settings can't be changed with an API token; sign in instead".toList)
  else .ok u

/-- Only for administrators. -/
def requireAdmin (conn : Conn) (user : Option User) : Except Refusal User := do
  let u ← requireUser conn user
  if ¬hasRole u .admin then .error (.http 403 "Administrator access required".toList)
  else .ok u

/-! ## What the checks let through -/

lemma hasRole_iff {user : User} {r : Role} : hasRole user r = true ↔ r ≤ user.role := by
  simp [hasRole]

lemma requireUser_ok_iff {conn : Conn} {user : Option User} {u : User} :
    requireUser conn user = .ok u ↔
      user = some u ∧ ∀ path same, conn = .websocket path same → same = true := by
  unfold requireUser
  rcases conn with ⟨m, p⟩ | ⟨p, _ | _⟩ <;> rcases user with _ | v <;> simp

/-- The router-wide check passes exactly for a signed-in user whose role is at least the one
the connection needs, while changes are accepted. -/
lemma requireAccess_ok_iff {down : Bool} {conn : Conn} {user : Option User} {u : User} :
    requireAccess down conn user = .ok u ↔
      requireUser conn user = .ok u ∧ conn.needed ≤ u.role ∧
        ¬(conn.needed = .operator ∧ down = true) := by
  unfold requireAccess
  cases requireUser conn user with
  | error e => simp [bind, Except.bind]
  | ok v =>
    simp only [bind, Except.bind, hasRole_iff, Except.ok.injEq]
    split_ifs with h₁ h₂
    · constructor
      · rintro ⟨⟩
      · rintro ⟨rfl, -, hdown⟩
        exact absurd h₂ hdown
    · constructor
      · rintro ⟨⟩
        exact ⟨rfl, h₁, h₂⟩
      · rintro ⟨rfl, -, -⟩
        rfl
    · constructor
      · rintro ⟨⟩
      · rintro ⟨rfl, hle, -⟩
        exact absurd hle h₁

lemma requireAdmin_ok_iff {conn : Conn} {user : Option User} {u : User} :
    requireAdmin conn user = .ok u ↔ requireUser conn user = .ok u ∧ u.role = .admin := by
  unfold requireAdmin
  cases requireUser conn user with
  | error e => simp [bind, Except.bind]
  | ok v =>
    simp only [bind, Except.bind, hasRole_iff, Role.admin_le_iff, Except.ok.injEq]
    split_ifs with h₁
    · constructor
      · rintro ⟨⟩
        exact ⟨rfl, h₁⟩
      · rintro ⟨rfl, -⟩
        rfl
    · constructor
      · rintro ⟨⟩
      · rintro ⟨rfl, hadmin⟩
        exact absurd hadmin h₁

/-- A method that only reads needs no more than the viewer's role. -/
lemma needed_of_reads {m : Method} (h : m.reads = true) (path : Text) :
    (Conn.http m path).needed = .viewer := by
  simp [Conn.needed, h]

lemma needed_le_operator (conn : Conn) : conn.needed ≤ .operator := by
  rcases conn with ⟨m, p⟩ | ⟨p, s⟩ <;> simp only [Conn.needed] <;> split_ifs <;> decide

end Habeny.Auth
