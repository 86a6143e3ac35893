import Habeny.Hosts.LocalOnly

/-!
# The role a relayed call is made with

A relayed call passes two checks of the same kind: this server asks its user for the role the
connection needs here, and the host asks its token for the role the connection needs there.
The file models the WebSocket relay beside the HTTP one and says when what the host performs
is also something the lower of the two roles may do (`relay_within_role_iff`): always behind
the host's access check, and otherwise only where the host's administrator-only routes are out
of reach; for a WebSocket, where the console is as visible to this server as to the host.
-/

namespace Habeny.Hosts

open Habeny.Lib Habeny.Auth Habeny.Http

/-! ## Relaying a WebSocket -/

/-- What the WebSocket relay reads of a handshake. -/
structure WsIncoming where
  target : Text
  query : Text
  sameOrigin : Bool

/-- The connection that the server routes for a handshake. -/
def wsConn (req : WsIncoming) : Conn :=
  .websocket (stripApiPrefix false (unquote (pathPart req.target))) req.sameOrigin

/-- The arguments with which a handshake reaches the relay. -/
def Server.wsArgs (srv : Server) (req : WsIncoming) (user : Option User) :
    Option (ℤ × Text) :=
  match serve srv.shuttingDown (wsConn req) user with
  | some (e, [hostId, path]) =>
    if e.endpoint = .relayWebsocket then (srv.parseInt hostId).map (·, path) else none
  | _ => none

/-- The host and the path that a handshake asks to be relayed to, when its user may use the
host. -/
def Server.wsCall (srv : Server) (req : WsIncoming) (user : Option User) :
    Option (Host × Text) :=
  (srv.wsArgs req user).bind fun (hostId, path) =>
    (usable srv.hosts hostId user).toOption.map (·, path)

/-- What follows the host's address in the URL that `relay_websocket` connects to. -/
def wsResource (path query : Text) : Text :=
  "/api/ws/".toList ++ path ++ (if query = [] then [] else '?' :: query)

/-- The request target that reaches the host when a handshake is relayed.  `wire` is the
WebSocket client: the target it sends for what it is given, if it connects. -/
def Server.wsForwards (srv : Server) (wire : Text → Option Text) (req : WsIncoming)
    (user : Option User) : Option Text :=
  (srv.wsCall req user).bind fun (_, path) => wire (wsResource path req.query)

lemma Server.wsForwards_eq_some_iff {srv : Server} {wire : Text → Option Text}
    {req : WsIncoming} {user : Option User} {target : Text} :
    srv.wsForwards wire req user = some target ↔
      ∃ host path, srv.wsCall req user = some (host, path) ∧
        wire (wsResource path req.query) = some target := by
  unfold Server.wsForwards
  rcases srv.wsCall req user with _ | ⟨host, path⟩ <;> simp

/-! ## What the local check has let through -/

lemma relayRoute_guard :
    ∀ e ∈ httpRoutes, e.endpoint = .relay →
      e.guard = .access ∧ e.pattern = ⟨.lit "hosts".toList :: e.pattern.segs.tail, true⟩ := by
  decide +kernel

lemma websocketRoute_guard : ∀ e ∈ websocketRoutes, e.guard = .access := by decide

/-- A path below `/hosts` is not one of the POST endpoints that only read. -/
lemma not_mem_readOnlyPosts {path : Text} (h : "/hosts".toList <+: path) :
    path ∉ readOnlyPosts := by
  intro hmem
  rw [readOnlyPosts, List.mem_singleton] at hmem
  subst hmem
  exact absurd h (by decide)

/-- The user of a relayed HTTP call has a role that the method needs. -/
lemma role_of_relayCall {srv : Server} {req : Incoming} {u : User} {host : Host} {path : Text}
    (h : srv.relayCall req (some u) = some (host, path)) :
    req.method.reads = true ∨ .operator ≤ u.role := by
  obtain ⟨args, hargs, -⟩ := Option.bind_eq_some_iff.mp h
  unfold Server.relayArgs at hargs
  rcases hs : serve srv.shuttingDown (.http req.method (srv.incomingPath req)) (some u) with
    _ | ⟨e, _ | ⟨hostId, _ | ⟨p, _ | ⟨c, cs⟩⟩⟩⟩ <;> simp only [hs, reduceCtorEq] at hargs
  split_ifs at hargs with he
  obtain ⟨hmem, hcap⟩ := findRoute_http (serve_eq_some.mp hs).1
  obtain ⟨hguard, hpattern⟩ := relayRoute_guard e hmem he
  have hperm := permits_of_serve hs
  rw [hguard, Guard.permits] at hperm
  rw [hpattern] at hcap
  by_cases hr : req.method.reads = true
  · exact Or.inl hr
  · have hpath := not_mem_readOnlyPosts (prefix_of_captures hcap)
    rw [Conn.needed, if_neg (by simp [hr, hpath])] at hperm
    exact Or.inr hperm

/-- What an HTTP call needs at a host behind the access check, it needed here. -/
lemma needed_le_of_relayCall {srv : Server} {req : Incoming} {u : User} {host : Host}
    {path : Text} (h : srv.relayCall req (some u) = some (host, path)) (remotePath : Text) :
    (Conn.http req.method remotePath).needed ≤ u.role := by
  rcases role_of_relayCall h with hr | hop
  · rw [needed_of_reads hr]
    exact u.role.viewer_le
  · exact (needed_le_operator _).trans hop

/-! ## What the host performs -/

/-- What a host serves to its token is permitted to the lower of two roles exactly when it is
permitted to the other one. -/
lemma permits_min_iff_of_serve {down : Bool} {conn : Conn} {token : User} {e : Entry}
    {cs : List Text} (h : serve down conn (some token) = some (e, cs)) (r : Role) :
    e.guard.permits conn (min r token.role) ↔ e.guard.permits conn r := by
  rw [Guard.permits_min_iff]
  exact and_iff_left (permits_of_serve h)

/-- What a role may do on a WebSocket: anything, the consoles from operator on. -/
lemma permits_websocket_iff {path : Text} {same : Bool} {e : Entry} {cs : List Text} {r : Role}
    (h : findRoute (.websocket path same) = some (e, cs)) :
    e.guard.permits (.websocket path same) r ↔ ¬(isConsolePath path = true ∧ r = .viewer) := by
  rw [websocketRoute_guard e (findRoute_websocket h).1, Guard.permits, Conn.needed]
  split_ifs with hc
  · simp only [hc, true_and]
    exact ⟨fun hle hr => absurd (hr ▸ hle) (by decide), Role.operator_le_of_ne_viewer⟩
  · simp [hc, r.viewer_le]

/-! ## Within your role here -/

/-- Every HTTP call of a request that a user has relayed is, where the host serves it to the
token, one that the lower of the two roles may make. -/
def httpWithinRole (srv : Server) (down : Bool) (u token : User) (req : Incoming) : Prop :=
  ∀ s e cs, srv.forwards req (some u) = some s →
    serve down (.http s.method (routedPath s.target)) (some token) = some (e, cs) →
      e.guard.permits (.http s.method (routedPath s.target)) (min u.role token.role)

/-- The same for the WebSocket of a handshake. -/
def wsWithinRole (srv : Server) (wire : Text → Option Text) (down : Bool) (u token : User)
    (req : WsIncoming) : Prop :=
  ∀ target e cs, srv.wsForwards wire req (some u) = some target →
    serve down (.websocket (routedPath target) true) (some token) = some (e, cs) →
      e.guard.permits (.websocket (routedPath target) true) (min u.role token.role)

/-- A user who is no administrator asks, with an administrator's token, for a path that is
relayed and that the host keeps for administrators. -/
def opensAdminRoute (srv : Server) (down : Bool) (u token : User) (req : Incoming) : Prop :=
  u.role ≠ .admin ∧ token.role = .admin ∧
    ∃ host path e cs, srv.relayCall req (some u) = some (host, path) ∧
      Text.startsWithAny localOnly (path.strip '/') = false ∧
      sendable (callTarget path req.query) ∧
      findRoute (.http req.method (routedPath (callTarget path req.query))) = some (e, cs) ∧
      e.guard.adminOnly = true ∧
      e.guard.restarts down (.http req.method (routedPath (callTarget path req.query))) = false

/-- A viewer asks, with the token of an operator or an administrator, for a WebSocket path
that is no console's until the host decodes it. -/
def opensConsole (srv : Server) (wire : Text → Option Text) (down : Bool) (u token : User)
    (req : WsIncoming) : Prop :=
  u.role = .viewer ∧ .operator ≤ token.role ∧ down = false ∧
    ∃ host path target e cs, srv.wsCall req (some u) = some (host, path) ∧
      wire (wsResource path req.query) = some target ∧
      findRoute (.websocket (routedPath target) true) = some (e, cs) ∧
      isConsolePath (routedPath target) = true

lemma httpWithinRole_iff (srv : Server) (down : Bool) (u token : User) (req : Incoming) :
    httpWithinRole srv down u token req ↔ ¬opensAdminRoute srv down u token req := by
  constructor
  · rintro h ⟨hu, ht, host, path, e, cs, hcall, hblock, hsend, hroute, hadmin, hup⟩
    have hfwd : srv.forwards req (some u) = some (callRequest host path req) :=
      Server.forwards_eq_some_iff.mpr ⟨host, path, hcall, hblock, hsend, rfl⟩
    have hperm : e.guard.permits
        (.http req.method (routedPath (callTarget path req.query))) token.role :=
      (Guard.permits_iff_of_needed (ht ▸ Role.le_admin _)).mpr fun _ => ht
    have hserve := serve_of_permits hroute hadmin hperm hup
    have hmin := h _ e cs hfwd hserve
    exact hu (Guard.eq_admin_of_permits hadmin
      ((permits_min_iff_of_serve hserve u.role).mp hmin))
  · intro h s e cs hfwd hserve
    obtain ⟨host, path, hcall, hblock, hsend, rfl⟩ := Server.forwards_eq_some_iff.mp hfwd
    refine (permits_min_iff_of_serve hserve u.role).mpr
      ((Guard.permits_iff_of_needed (needed_le_of_relayCall hcall _)).mpr fun hadmin => ?_)
    by_contra hu
    have ht : token.role = .admin := Guard.eq_admin_of_permits hadmin (permits_of_serve hserve)
    obtain ⟨hroute, v, hv⟩ := serve_eq_some.mp hserve
    exact h ⟨hu, ht, host, path, e, cs, hcall, hblock, hsend, hroute, hadmin,
      Guard.restarts_of_check hv⟩

lemma wsWithinRole_iff (srv : Server) (wire : Text → Option Text) (down : Bool)
    (u token : User) (req : WsIncoming) :
    wsWithinRole srv wire down u token req ↔ ¬opensConsole srv wire down u token req := by
  constructor
  · rintro h ⟨hu, ht, rfl, host, path, target, e, cs, hcall, hwire, hroute, hconsole⟩
    have hguard := websocketRoute_guard e (findRoute_websocket hroute).1
    have hserve : serve false (.websocket (routedPath target) true) (some token)
        = some (e, cs) := by
      refine serve_eq_some.mpr ⟨hroute, some token, ?_⟩
      rw [hguard, Guard.check, except_map_eq_ok]
      refine ⟨token, requireAccess_ok_iff.mpr ⟨rfl, ?_, by simp⟩, rfl⟩
      exact (needed_le_operator _).trans ht
    have hmin := h target e cs (Server.wsForwards_eq_some_iff.mpr ⟨host, path, hcall, hwire⟩)
      hserve
    rw [permits_min_iff_of_serve hserve, permits_websocket_iff hroute] at hmin
    exact hmin ⟨hconsole, hu⟩
  · intro h target e cs hfwd hserve
    obtain ⟨host, path, hcall, hwire⟩ := Server.wsForwards_eq_some_iff.mp hfwd
    obtain ⟨hroute, v, hv⟩ := serve_eq_some.mp hserve
    rw [permits_min_iff_of_serve hserve, permits_websocket_iff hroute]
    rintro ⟨hconsole, hu⟩
    -- the host asked its token for the operator's role, and was not stopping
    rw [websocketRoute_guard e (findRoute_websocket hroute).1, Guard.check,
      except_map_eq_ok] at hv
    obtain ⟨w, hw, -⟩ := hv
    obtain ⟨huser, hle, hdown⟩ := requireAccess_ok_iff.mp hw
    have hself : w = token := (Option.some.inj (requireUser_ok_iff.mp huser).1).symm
    have hneeded : (Conn.websocket (routedPath target) true).needed = .operator := by
      simp [Conn.needed, hconsole]
    rw [hneeded, hself] at hle
    exact h ⟨hu, hle, by simpa [hneeded] using hdown, host, path, target, e, cs, hcall, hwire,
      hroute, hconsole⟩

/-- A token of an account on the host. -/
def tokenOf (role : Role) : User :=
  { id := 1, username := "console".toList, role := role, isAdmin := decide (role = .admin),
    teamId := none, auth := .token }

/-- A request to verify the host's audit log. -/
def verifyRequest : Incoming :=
  { method := .get, target := "/api/hosts/1/api/activity/verify".toList, wantsHtml := false,
    query := [], headers := [], requestId := none, body := [] }

/-- A handshake for a console of the host, with one letter escaped twice. -/
def consoleHandshake : WsIncoming :=
  { target := "/api/hosts/1/ws/%2563onsole/web-0001".toList, query := [], sameOrigin := true }

end Habeny.Hosts
