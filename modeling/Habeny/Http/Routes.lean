import Habeny.Auth.Role
import Habeny.Lib.Route
import Habeny.Lib.Percent

/-!
# The routes of a Habeny server

Every route with the guard its router and its decorator put on it, in the order in which they
are registered (`register_routes`), and how a request finds its route: the path is
percent-decoded once, `StripApiPrefixMiddleware` rewrites it, and the first route whose
pattern and method match serves it, once its guard lets the user through.
-/

namespace Habeny.Http

open Habeny.Lib Habeny.Auth

/-! ## Guards -/

/-- The checks that stand before an endpoint. -/
inductive Guard where
  /-- no check: health probes, sign-in and the frontend -/
  | anyone
  /-- `require_user` -/
  | user
  /-- `require_user` and `require_session` -/
  | session
  /-- `require_access` -/
  | access
  /-- `require_admin` -/
  | admin
  /-- `require_access`, and `require_admin` on the route itself -/
  | accessAdmin
  deriving DecidableEq

/-- Run the checks of a guard. -/
def Guard.check (down : Bool) (conn : Conn) (user : Option User) :
    Guard → Except Refusal (Option User)
  | .anyone => .ok user
  | .user => (requireUser conn user).map some
  | .session => (requireSession conn user).map some
  | .access => (requireAccess down conn user).map some
  | .admin => (requireAdmin conn user).map some
  | .accessAdmin => do
    let _ ← requireAccess down conn user
    (requireAdmin conn user).map some

/-- What a role may do behind a guard: the role part of the guard's checks. -/
def Guard.permits (g : Guard) (conn : Conn) (r : Role) : Prop :=
  match g with
  | .anyone | .user | .session => True
  | .access => conn.needed ≤ r
  | .admin => r = .admin
  | .accessAdmin => conn.needed ≤ r ∧ r = .admin

instance (g : Guard) (conn : Conn) (r : Role) : Decidable (g.permits conn r) := by
  cases g <;> unfold Guard.permits <;> infer_instance

/-- Whether only administrators get past a guard. -/
def Guard.adminOnly : Guard → Bool
  | .admin | .accessAdmin => true
  | _ => false

lemma except_map_eq_ok {ε α β : Type*} {f : α → β} {x : Except ε α} {b : β} :
    x.map f = .ok b ↔ ∃ a, x = .ok a ∧ f a = b := by
  cases x <;> simp [Except.map]

/-- Who gets past a guard has a role that is permitted there. -/
lemma Guard.permits_of_check {g : Guard} {down : Bool} {conn : Conn} {u : User}
    {v : Option User} (h : g.check down conn (some u) = .ok v) : g.permits conn u.role := by
  have hself {w : User} (hw : requireUser conn (some u) = .ok w) : w = u :=
    (Option.some.inj (requireUser_ok_iff.mp hw).1).symm
  cases g with
  | anyone => trivial
  | user => trivial
  | session => trivial
  | access =>
    obtain ⟨w, hw, -⟩ := except_map_eq_ok.mp h
    obtain ⟨huser, hle, -⟩ := requireAccess_ok_iff.mp hw
    rw [hself huser] at hle
    exact hle
  | admin =>
    obtain ⟨w, hw, -⟩ := except_map_eq_ok.mp h
    obtain ⟨huser, hadmin⟩ := requireAdmin_ok_iff.mp hw
    rw [hself huser] at hadmin
    exact hadmin
  | accessAdmin =>
    simp only [Guard.check, bind, Except.bind] at h
    cases hacc : requireAccess down conn (some u) with
    | error e => simp [hacc] at h
    | ok w =>
      simp only [hacc] at h
      obtain ⟨x, hx, -⟩ := except_map_eq_ok.mp h
      obtain ⟨huser, hle, -⟩ := requireAccess_ok_iff.mp hacc
      obtain ⟨huser', hadmin⟩ := requireAdmin_ok_iff.mp hx
      rw [hself huser] at hle
      rw [hself huser'] at hadmin
      exact ⟨hle, hadmin⟩

/-- A guard that permits a role permits every higher one. -/
lemma Guard.permits_mono {g : Guard} {conn : Conn} {r r' : Role} (hle : r ≤ r')
    (h : g.permits conn r) : g.permits conn r' := by
  have hadmin (hr : r = .admin) : r' = .admin := Role.admin_le_iff.mp (hr ▸ hle)
  cases g with
  | anyone => trivial
  | user => trivial
  | session => trivial
  | access => exact le_trans h hle
  | admin => exact hadmin h
  | accessAdmin => exact ⟨le_trans h.1 hle, hadmin h.2⟩

/-- The lower of two roles is permitted behind a guard that is not for administrators only
exactly when both are. -/
lemma Guard.permits_min_iff {g : Guard} {conn : Conn} {r t : Role} :
    g.permits conn (min r t) ↔ g.permits conn r ∧ g.permits conn t := by
  constructor
  · intro h
    exact ⟨permits_mono (min_le_left r t) h, permits_mono (min_le_right r t) h⟩
  · rintro ⟨hr, ht⟩
    rcases le_total r t with hle | hle
    · rwa [min_eq_left hle]
    · rwa [min_eq_right hle]

/-- Behind a guard that is not for administrators, what a connection needs is enough. -/
lemma Guard.permits_of_needed {g : Guard} {conn : Conn} {r : Role} (hg : g.adminOnly = false)
    (h : conn.needed ≤ r) : g.permits conn r := by
  cases g <;> trivial

lemma Guard.eq_admin_of_permits {g : Guard} {conn : Conn} {r : Role} (hg : g.adminOnly = true)
    (h : g.permits conn r) : r = .admin := by
  cases g with
  | admin => exact h
  | accessAdmin => exact h.2
  | anyone | user | session | access => exact absurd hg (by decide)

/-- A role that is enough for a connection may do what is behind a guard, unless that is for
administrators. -/
lemma Guard.permits_iff_of_needed {g : Guard} {conn : Conn} {r : Role} (h : conn.needed ≤ r) :
    g.permits conn r ↔ (g.adminOnly = true → r = .admin) := by
  cases hg : g.adminOnly with
  | false => simp [Guard.permits_of_needed hg h]
  | true =>
    refine ⟨fun hp _ => Guard.eq_admin_of_permits hg hp, fun hadmin => ?_⟩
    cases g with
    | admin => exact hadmin rfl
    | accessAdmin => exact ⟨h, hadmin rfl⟩
    | anyone | user | session | access => exact absurd hg (by decide)

/-- Whether a guard refuses a connection because the server shuts down. -/
def Guard.restarts (g : Guard) (down : Bool) (conn : Conn) : Bool :=
  match g with
  | .access | .accessAdmin => decide (conn.needed = .operator) && down
  | .anyone | .user | .session | .admin => false

lemma Guard.restarts_of_check {g : Guard} {down : Bool} {conn : Conn} {user v : Option User}
    (h : g.check down conn user = .ok v) : g.restarts down conn = false := by
  have haccess {w : User} (hw : requireAccess down conn user = .ok w) :
      (decide (conn.needed = .operator) && down) = false := by
    simpa using (requireAccess_ok_iff.mp hw).2.2
  cases g with
  | anyone | user | session | admin => rfl
  | access =>
    obtain ⟨w, hw, -⟩ := except_map_eq_ok.mp h
    exact haccess hw
  | accessAdmin =>
    cases hacc : requireAccess down conn user with
    | error r => simp [Guard.check, hacc, bind, Except.bind] at h
    | ok w => exact haccess hacc

/-- Over HTTP an administrator gets past the guards that are for administrators, while the
server takes what is asked. -/
lemma Guard.check_of_permits {g : Guard} {down : Bool} {m : Method} {path : Text} {u : User}
    (hg : g.adminOnly = true) (hp : g.permits (.http m path) u.role)
    (hup : g.restarts down (.http m path) = false) :
    ∃ v, g.check down (.http m path) (some u) = .ok v := by
  have hadmin : requireAdmin (.http m path) (some u) = .ok u :=
    requireAdmin_ok_iff.mpr ⟨rfl, Guard.eq_admin_of_permits hg hp⟩
  cases g with
  | admin => exact ⟨some u, by rw [Guard.check, hadmin]; rfl⟩
  | accessAdmin =>
    have hacc : requireAccess down (.http m path) (some u) = .ok u :=
      requireAccess_ok_iff.mpr ⟨rfl, hp.1, by simpa [Guard.restarts] using hup⟩
    exact ⟨some u, by simp only [Guard.check, hacc, hadmin]; rfl⟩
  | anyone | user | session | access => exact absurd hg (by decide)

/-! ## The table -/

/-- The endpoints, under the names of the functions that serve them. -/
inductive Endpoint where
  | apiDocs | healthz | readyz
  | listHosts | hostsOverview | addHost | editHost | removeHost | relay | relayWebsocket
  | metrics | listAlerts | systemInfo | healthCheck
  | metricsStream | getBenchmarks | getMetricsHistory | getSystemMetrics | consoleSession
  | getDeploymentProgress | deployAgents | listAgents | getAgentsStats | getAgent | deleteAgent
  | bulkAgentOperation | startAgent | stopAgent | enableUtmstackSyslog | disableUtmstackSyslog
  | scheduleLogUpload | stopLogSchedule | listLogSchedules | uploadLogsToAgent
  | listAgentGroups | createAgentGroup | renameAgentGroup | deleteAgentGroup | assignGroupAgents
  | removeGroupAgents | bulkGroupOperation | uploadLogsToGroup | scheduleLogsToGroup
  | listSimulations | loadSimulation | startSyslogSimulation | startSimulation | stopSimulation
  | checkSimulationDetection
  | listConfigs | importConfig | exportConfig
  | generateReport | listReports | getReport | downloadReport
  | getActivityLogs | getActivityFacets | exportActivity | verifyActivity
  | listManagerProfiles | getManagerProfile | createManagerProfile | updateManagerProfile
  | deleteManagerProfile | testDetectionConnection | testSyslogConnection
  | listBenchmarkScenarios | startBenchmark | stopBenchmark | cleanupBenchmarks | listBenchmarks
  | getBenchmarkDetail | getBenchmarkMetrics | getBenchmarkBottlenecks | compareBenchmarks
  | getSiemSummary | getSiemStats
  | changeOwnPassword | myTwoFactor | startTwoFactor | enableTwoFactor | regenerateRecoveryCodes
  | disableTwoFactor | mySessions | endMySession | endMyOtherSessions | myTokens | createMyToken
  | revokeMyToken | allTokens | revokeToken | getUsers | addUser | updateUser | resetUserPassword
  | userSessions | endUserSessions | resetUserTwoFactor | removeUser
  | listBackups | createBackup | downloadBackup
  | getChannels | addChannel | editChannel | removeChannel | testChannel
  | listTeams | createTeam | updateTeam | deleteTeam | setUserTeam | assignContainers
  | getLicense | installLicense
  | authStatus | setupAdmin | login | loginSecondFactor | logout | ssoLogin | ssoCallback
  | thirdPartyNotices | assets | serveSpa
  deriving DecidableEq

/-- A route of the server. -/
structure Entry where
  methods : List Method
  pattern : Pattern
  guard : Guard
  endpoint : Endpoint
  deriving DecidableEq

/-- A route, written as its decorator writes it. -/
def on (methods : List Method) (template : String) (guard : Guard) (endpoint : Endpoint) : Entry :=
  ⟨methods, Pattern.ofTemplate template.toList, guard, endpoint⟩

/-- The methods the relay takes. -/
def relayMethods : List Method := [.get, .post, .put, .patch, .delete]

/-- The HTTP routes behind the router-wide access check, and the ones before them. -/
def accessRoutes : List Entry :=
  [ on [.get, .head] "/docs" .anyone .apiDocs,
    on [.get, .head] "/docs/oauth2-redirect" .anyone .apiDocs,
    on [.get, .head] "/redoc" .anyone .apiDocs,
    on [.get, .head] "/openapi.json" .anyone .apiDocs,
    on [.get] "/healthz" .anyone .healthz,
    on [.get] "/readyz" .anyone .readyz,
    on [.get] "/hosts" .access .listHosts,
    on [.get] "/hosts/overview" .access .hostsOverview,
    on [.post] "/hosts" .accessAdmin .addHost,
    on [.put] "/hosts/{host_id}" .accessAdmin .editHost,
    on [.delete] "/hosts/{host_id}" .accessAdmin .removeHost,
    on relayMethods "/hosts/{host_id}/api/{path:path}" .access .relay,
    on [.get] "/metrics" .access .metrics,
    on [.get] "/system/alerts" .access .listAlerts,
    on [.get] "/system/info" .access .systemInfo,
    on [.get] "/system/health" .access .healthCheck,
    on [.get] "/metrics/benchmarks" .access .getBenchmarks,
    on [.get] "/metrics/history" .access .getMetricsHistory,
    on [.get] "/metrics/system" .access .getSystemMetrics,
    on [.get] "/agents/deploy/progress/{deployment_id}" .access .getDeploymentProgress,
    on [.post] "/agents/deploy" .access .deployAgents,
    on [.get] "/agents" .access .listAgents,
    on [.get] "/agents/stats" .access .getAgentsStats,
    on [.get] "/agents/{agent_id}" .access .getAgent,
    on [.delete] "/agents/{agent_id}" .access .deleteAgent,
    on [.post] "/agents/bulk/{operation}" .access .bulkAgentOperation,
    on [.post] "/agents/{agent_id}/start" .access .startAgent,
    on [.post] "/agents/{agent_id}/stop" .access .stopAgent,
    on [.post] "/agents/{agent_id}/enable-syslog" .access .enableUtmstackSyslog,
    on [.post] "/agents/{agent_id}/disable-syslog" .access .disableUtmstackSyslog,
    on [.post] "/agents/{agent_id}/logs/schedule" .access .scheduleLogUpload,
    on [.post] "/agents/logs/schedules/{schedule_id}/stop" .access .stopLogSchedule,
    on [.get] "/agents/logs/schedules" .access .listLogSchedules,
    on [.post] "/agents/{agent_id}/logs/upload" .access .uploadLogsToAgent,
    on [.get] "/groups" .access .listAgentGroups,
    on [.post] "/groups" .access .createAgentGroup,
    on [.post] "/groups/{group_name}/rename" .access .renameAgentGroup,
    on [.delete] "/groups/{group_name}" .access .deleteAgentGroup,
    on [.post] "/groups/{group_name}/assign" .access .assignGroupAgents,
    on [.post] "/groups/{group_name}/remove" .access .removeGroupAgents,
    on [.post] "/groups/{group_name}/bulk/{operation}" .access .bulkGroupOperation,
    on [.post] "/groups/{group_name}/logs/upload" .access .uploadLogsToGroup,
    on [.post] "/groups/{group_name}/logs/schedule" .access .scheduleLogsToGroup,
    on [.get] "/simulations" .access .listSimulations,
    on [.post] "/simulations/load" .access .loadSimulation,
    on [.post] "/simulations/syslog/start" .access .startSyslogSimulation,
    on [.post] "/simulations/start" .access .startSimulation,
    on [.post] "/simulations/{simulation_id}/stop" .access .stopSimulation,
    on [.post] "/simulations/{simulation_id}/detection" .access .checkSimulationDetection,
    on [.get] "/configs" .access .listConfigs,
    on [.post] "/configs/import" .access .importConfig,
    on [.get] "/configs/export/{template_id}" .access .exportConfig,
    on [.post] "/reports/generate" .access .generateReport,
    on [.get] "/reports" .access .listReports,
    on [.get] "/reports/{report_id}" .access .getReport,
    on [.get] "/reports/{report_id}/download" .access .downloadReport,
    on [.get] "/activity/logs" .access .getActivityLogs,
    on [.get] "/activity/facets" .access .getActivityFacets,
    on [.get] "/activity/export" .access .exportActivity,
    on [.get] "/activity/verify" .accessAdmin .verifyActivity,
    on [.get] "/managers" .access .listManagerProfiles,
    on [.get] "/managers/{manager_id}" .access .getManagerProfile,
    on [.post] "/managers" .access .createManagerProfile,
    on [.put] "/managers/{manager_id}" .access .updateManagerProfile,
    on [.delete] "/managers/{manager_id}" .access .deleteManagerProfile,
    on [.post] "/managers/{manager_id}/detection/test" .access .testDetectionConnection,
    on [.post] "/managers/{manager_id}/syslog/test" .access .testSyslogConnection,
    on [.get] "/benchmarks/scenarios" .access .listBenchmarkScenarios,
    on [.post] "/benchmarks/start" .access .startBenchmark,
    on [.post] "/benchmarks/{benchmark_id}/stop" .access .stopBenchmark,
    on [.post] "/benchmarks/cleanup" .access .cleanupBenchmarks,
    on [.get] "/benchmarks" .access .listBenchmarks,
    on [.get] "/benchmarks/{benchmark_id}" .access .getBenchmarkDetail,
    on [.get] "/benchmarks/{benchmark_id}/metrics" .access .getBenchmarkMetrics,
    on [.get] "/benchmarks/{benchmark_id}/bottlenecks" .access .getBenchmarkBottlenecks,
    on [.post] "/benchmarks/compare" .access .compareBenchmarks,
    on [.get] "/siem/summary" .access .getSiemSummary,
    on [.get] "/siem/{siem_type}/stats" .access .getSiemStats ]

/-- The HTTP routes of accounts, backups, channels, teams, the licence and sign-in. -/
def accountRoutes : List Entry :=
  [ on [.post] "/users/me/password" .session .changeOwnPassword,
    on [.get] "/users/me/2fa" .session .myTwoFactor,
    on [.post] "/users/me/2fa/setup" .session .startTwoFactor,
    on [.post] "/users/me/2fa/enable" .session .enableTwoFactor,
    on [.post] "/users/me/2fa/recovery-codes" .session .regenerateRecoveryCodes,
    on [.post] "/users/me/2fa/disable" .session .disableTwoFactor,
    on [.get] "/users/me/sessions" .session .mySessions,
    on [.delete] "/users/me/sessions/{session_id}" .session .endMySession,
    on [.post] "/users/me/sessions/revoke-others" .session .endMyOtherSessions,
    on [.get] "/users/me/tokens" .session .myTokens,
    on [.post] "/users/me/tokens" .session .createMyToken,
    on [.delete] "/users/me/tokens/{token_id}" .session .revokeMyToken,
    on [.get] "/users/tokens" .admin .allTokens,
    on [.delete] "/users/tokens/{token_id}" .admin .revokeToken,
    on [.get] "/users" .admin .getUsers,
    on [.post] "/users" .admin .addUser,
    on [.patch] "/users/{user_id}" .admin .updateUser,
    on [.post] "/users/{user_id}/password" .admin .resetUserPassword,
    on [.get] "/users/{user_id}/sessions" .admin .userSessions,
    on [.post] "/users/{user_id}/sessions/revoke" .admin .endUserSessions,
    on [.delete] "/users/{user_id}/2fa" .admin .resetUserTwoFactor,
    on [.delete] "/users/{user_id}" .admin .removeUser,
    on [.get] "/system/backups" .admin .listBackups,
    on [.post] "/system/backups" .admin .createBackup,
    on [.get] "/system/backups/{name}" .admin .downloadBackup,
    on [.get] "/notifications/channels" .admin .getChannels,
    on [.post] "/notifications/channels" .admin .addChannel,
    on [.put] "/notifications/channels/{channel_id}" .admin .editChannel,
    on [.delete] "/notifications/channels/{channel_id}" .admin .removeChannel,
    on [.post] "/notifications/channels/{channel_id}/test" .admin .testChannel,
    on [.get] "/teams" .admin .listTeams,
    on [.post] "/teams" .admin .createTeam,
    on [.put] "/teams/{team_id}" .admin .updateTeam,
    on [.delete] "/teams/{team_id}" .admin .deleteTeam,
    on [.put] "/users/{user_id}/team" .admin .setUserTeam,
    on [.post] "/teams/assign" .admin .assignContainers,
    on [.get] "/license" .user .getLicense,
    on [.post] "/license" .admin .installLicense,
    on [.get] "/auth/status" .anyone .authStatus,
    on [.post] "/auth/setup" .anyone .setupAdmin,
    on [.post] "/auth/login" .anyone .login,
    on [.post] "/auth/login/2fa" .anyone .loginSecondFactor,
    on [.post] "/auth/logout" .anyone .logout,
    on [.get] "/auth/oidc/login" .anyone .ssoLogin,
    on [.get] "/auth/oidc/callback" .anyone .ssoCallback ]

/-- The routes of the frontend. -/
def staticRoutes : List Entry :=
  [ on [.get] "/THIRD_PARTY_NOTICES.txt" .anyone .thirdPartyNotices,
    on [.get, .head] "/assets/{path:path}" .anyone .assets,
    on [.get] "/{path:path}" .anyone .serveSpa ]

/-- The HTTP routes in the order of their registration. -/
def httpRoutes : List Entry := accessRoutes ++ accountRoutes ++ staticRoutes

/-- The WebSocket routes in the order of their registration: the relay comes before the local
ones. -/
def websocketRoutes : List Entry :=
  [ on [] "/hosts/{host_id}/ws/{path:path}" .access .relayWebsocket,
    on [] "/ws/metrics" .access .metricsStream,
    on [] "/ws/console/{container_name}" .access .consoleSession ]

/-- The route that serves a connection, with the values of its path parameters. -/
def findRoute : Conn → Option (Entry × List Text)
  | .http method path =>
    route Entry.pattern (fun e => decide (method ∈ e.methods)) path httpRoutes
  | .websocket path _ => route Entry.pattern (fun _ => true) path websocketRoutes

/-- Serve a connection: its route runs once the guard lets the user through. -/
def serve (down : Bool) (conn : Conn) (user : Option User) : Option (Entry × List Text) :=
  (findRoute conn).bind fun (e, cs) =>
    match e.guard.check down conn user with
    | .ok _ => some (e, cs)
    | .error _ => none

lemma serve_eq_some {down : Bool} {conn : Conn} {user : Option User} {e : Entry}
    {cs : List Text} :
    serve down conn user = some (e, cs) ↔
      findRoute conn = some (e, cs) ∧ ∃ v, e.guard.check down conn user = .ok v := by
  unfold serve
  rcases findRoute conn with _ | ⟨e', cs'⟩
  · simp
  · rw [Option.bind_some]
    constructor
    · intro h
      cases hc : e'.guard.check down conn user with
      | error r => simp [hc] at h
      | ok v =>
        simp only [hc, Option.some.injEq, Prod.mk.injEq] at h
        obtain ⟨rfl, rfl⟩ := h
        exact ⟨rfl, v, hc⟩
    · rintro ⟨h, v, hv⟩
      obtain ⟨rfl, rfl⟩ := Prod.mk.inj (Option.some.inj h)
      simp [hv]

/-- Who is served has a role that the route's guard permits. -/
lemma permits_of_serve {down : Bool} {conn : Conn} {u : User} {e : Entry} {cs : List Text}
    (h : serve down conn (some u) = some (e, cs)) : e.guard.permits conn u.role := by
  obtain ⟨-, v, hv⟩ := serve_eq_some.mp h
  exact Guard.permits_of_check hv

/-- Who is permitted behind an administrators' guard is served there. -/
lemma serve_of_permits {down : Bool} {m : Method} {path : Text} {u : User} {e : Entry}
    {cs : List Text} (hroute : findRoute (.http m path) = some (e, cs))
    (hg : e.guard.adminOnly = true) (hp : e.guard.permits (.http m path) u.role)
    (hup : e.guard.restarts down (.http m path) = false) :
    serve down (.http m path) (some u) = some (e, cs) :=
  serve_eq_some.mpr ⟨hroute, Guard.check_of_permits hg hp hup⟩

lemma findRoute_http {method : Method} {path : Text} {e : Entry} {cs : List Text}
    (h : findRoute (.http method path) = some (e, cs)) :
    e ∈ httpRoutes ∧ e.pattern.captures path = some cs :=
  ⟨(route_eq_some h).1, (route_eq_some h).2.2⟩

lemma findRoute_websocket {path : Text} {same : Bool} {e : Entry} {cs : List Text}
    (h : findRoute (.websocket path same) = some (e, cs)) :
    e ∈ websocketRoutes ∧ e.pattern.captures path = some cs :=
  ⟨(route_eq_some h).1, (route_eq_some h).2.2⟩

/-! ## The path a server routes -/

/-- What the prefix middleware knows of the built frontend. -/
structure StaticDir where
  hasIndex : Bool
  isFile : Text → Bool

/-- A browser page load: a GET that asks for HTML outside the assets and the static files. -/
def isPageLoad (files : StaticDir) (method : Method) (wantsHtml : Bool) (path : Text) : Bool :=
  decide (method = .get) && wantsHtml && !"/assets/".toList.isPrefixOf path && files.hasIndex
    && !files.isFile (path.lstrip '/')

/-- `StripApiPrefixMiddleware`: the path that is routed. -/
def stripApiPrefix (pageLoad : Bool) (path : Text) : Text :=
  if path = "/api".toList ∨ "/api/".toList <+: path then
    if path.drop 4 = [] then "/".toList else path.drop 4
  else if pageLoad then "/index.html".toList
  else path

/-- What stands before the query in a request target. -/
def pathPart (target : Text) : Text := target.takeWhile (· != '?')

/-- The path that a server routes for a request target that asks for the API: the server
decodes what stands before the query once and strips the prefix. -/
def routedPath (target : Text) : Text := stripApiPrefix false (unquote (pathPart target))

lemma stripApiPrefix_api (pageLoad : Bool) (path : Text) :
    stripApiPrefix pageLoad ("/api/".toList ++ path) = '/' :: path := by
  have h : "/api/".toList <+: "/api/".toList ++ path := List.prefix_append _ _
  rw [stripApiPrefix, if_pos (Or.inr h)]
  simp

/-- The path a server routes for a target below `/api/`. -/
lemma routedPath_api (s : Text) :
    routedPath ("/api/".toList ++ s) = '/' :: unquote (pathPart s) := by
  have hpart : pathPart ("/api/".toList ++ s) = "/api/".toList ++ pathPart s := by
    simp [pathPart, List.takeWhile]
  rw [routedPath, hpart, unquote_literal_append (by decide) (by decide), stripApiPrefix_api]

end Habeny.Http
