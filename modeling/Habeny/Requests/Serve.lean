import Habeny.Requests.Containers
import Habeny.Requests.Work

/-!
# Serving a request

The route of a request is found, its guard runs, and then its endpoint, with the parameters of
the path and with what the endpoint's model read in the query or in the body.
-/

namespace Habeny.Requests

open Habeny.Lib Habeny.Auth Habeny.Tenancy Habeny.Http

/-- What an endpoint's model read; `none` where it takes nothing, or could not read it. -/
inductive Input where
  | none
  | listing (q : ListQuery)
  | names (names : List Text)
  | deployment (req : Deploy.Request)
  | customLog (req : CustomLogRequest)
  | syslog (req : SyslogRequest)
  | simulation (req : SimulationRequest)
  | benchmark (req : BenchmarkRequest)
  | logUpload (req : LogUploadRequest)
  | logSchedule (req : LogScheduleRequest)

structure ApiRequest where
  conn : Conn
  user : Option User
  input : Input

/-- The answer to what a model cannot read; its details are left out. -/
def unprocessable {α : Type} : Handler α := Prog.fail (.http 422 [])

variable (s : Setup)

/-- An endpoint that needs LXC access. -/
def withRoot (p : Handler Answer) : Handler Answer := do
  checkRoot s
  p

/-- Run an endpoint. -/
def handle (user : Option User) (endpoint : Endpoint) (params : List Text) (input : Input) :
    Handler Answer :=
  let first := params.headD []
  match endpoint with
  | .deployAgents => withRoot s
    (match input with
    | .deployment req => deployAgents s user req
    | _ => unprocessable)
  | .listAgents =>
    match input with
    | .listing q => listAgents s user q
    | _ => unprocessable
  | .getAgentsStats => getAgentsStats user
  | .getAgent => getAgent user first
  | .deleteAgent => withRoot s (deleteAgent s user first)
  | .bulkAgentOperation => withRoot s
    (match input with
    | .names names => bulkAgentOperation s user first names
    | _ => unprocessable)
  | .startAgent => withRoot s (startAgent s user first)
  | .stopAgent => withRoot s (stopAgent s user first)
  | .scheduleLogUpload =>
    match input with
    | .logSchedule req => scheduleLogUpload s user first req
    | _ => unprocessable
  | .uploadLogsToAgent =>
    match input with
    | .logUpload req => uploadLogsToAgent s user first req
    | _ => unprocessable
  | .bulkGroupOperation => bulkGroupOperation s user first (params.getD 1 [])
  | .uploadLogsToGroup =>
    match input with
    | .logUpload _ => uploadLogsToGroup s user first
    | _ => unprocessable
  | .scheduleLogsToGroup =>
    match input with
    | .logSchedule req => scheduleLogsToGroup s user first req
    | _ => unprocessable
  | .loadSimulation =>
    match input with
    | .customLog req => loadSimulation s user req
    | _ => unprocessable
  | .startSyslogSimulation =>
    match input with
    | .syslog req => startSyslogSimulation s req
    | _ => unprocessable
  | .startSimulation =>
    match input with
    | .simulation req => startSimulation s user req
    | _ => unprocessable
  | .startBenchmark =>
    match input with
    | .benchmark req => startBenchmark s user req
    | _ => unprocessable
  -- a relayed request does its work on the other server, under that server's licence
  | other => ofExcept (s.elsewhere other params user)

/-- The answer where no route serves a connection. -/
def unrouted (conn : Conn) : Refusal :=
  match conn with
  | .http _ path =>
    if httpRoutes.any fun e => (e.pattern.captures path).isSome then
      .http 405 "Method Not Allowed".toList
    else .http 404 "Not Found".toList
  | .websocket _ _ => .websocket 1000 []

/-- Serve a request. -/
def respond (down : Bool) (req : ApiRequest) : Handler Answer :=
  match findRoute req.conn with
  | none => Prog.fail (unrouted req.conn)
  | some (e, params) =>
    match e.guard.check down req.conn req.user with
    | .error refusal => Prog.fail refusal
    | .ok _ => handle s req.user e.endpoint params req.input

variable {s}

/-- A request that is served is its endpoint's. -/
lemma respond_of_serve {down : Bool} {req : ApiRequest} {e : Entry} {params : List Text}
    (h : serve down req.conn req.user = some (e, params)) :
    respond s down req = handle s req.user e.endpoint params req.input := by
  obtain ⟨hroute, v, hguard⟩ := serve_eq_some.mp h
  simp only [respond, hroute, hguard]

lemma unrouted_notLicence (conn : Conn) : NotLicence (unrouted conn) := by
  unfold unrouted
  rcases conn with ⟨method, path⟩ | ⟨path, same⟩
  · dsimp only
    split
    · exact notLicence_http (by decide)
    · exact notLicence_http (by decide)
  · exact fun _ hd => Refusal.noConfusion hd

lemma refuse_notLicence {conn : Conn} {status code : ℕ} {detail reason : Text}
    (h : status ≠ 402) : NotLicence (conn.refuse status detail code reason) := by
  rcases conn with ⟨method, path⟩ | ⟨path, same⟩
  · exact notLicence_http h
  · exact fun _ hd => Refusal.noConfusion hd

lemma requireUser_notLicence {conn : Conn} {user : Option User} {e : Refusal}
    (h : requireUser conn user = .error e) : NotLicence e := by
  unfold requireUser at h
  split at h
  · exact absurd h (by simp)
  · exact absurd h (by simp)
  · obtain rfl := Except.error.inj h
    exact refuse_notLicence (by decide)

lemma except_map_eq_error {ε α β : Type} {f : α → β} {x : Except ε α} {e : ε}
    (h : x.map f = .error e) : x = .error e := by
  cases x with
  | error e' => exact congrArg Except.error (Except.error.inj h)
  | ok a => exact absurd h (by simp [Except.map])

lemma except_bind_eq_error {ε α β : Type} {f : α → Except ε β} {x : Except ε α} {e : ε}
    (h : (x >>= f) = .error e) : x = .error e ∨ ∃ a, f a = .error e := by
  cases x with
  | error e' => exact Or.inl (congrArg Except.error (Except.error.inj h))
  | ok a => exact Or.inr ⟨a, h⟩

lemma requireAccess_notLicence {down : Bool} {conn : Conn} {user : Option User} {e : Refusal}
    (h : requireAccess down conn user = .error e) : NotLicence e := by
  obtain hu | ⟨u, hu⟩ := except_bind_eq_error h
  · exact requireUser_notLicence hu
  · split_ifs at hu
    · obtain rfl := Except.error.inj hu
      exact refuse_notLicence (by decide)
    · obtain rfl := Except.error.inj hu
      exact refuse_notLicence (by decide)

lemma requireSession_notLicence {conn : Conn} {user : Option User} {e : Refusal}
    (h : requireSession conn user = .error e) : NotLicence e := by
  obtain hu | ⟨u, hu⟩ := except_bind_eq_error h
  · exact requireUser_notLicence hu
  · split_ifs at hu
    obtain rfl := Except.error.inj hu
    exact notLicence_http (by decide)

lemma requireAdmin_notLicence {conn : Conn} {user : Option User} {e : Refusal}
    (h : requireAdmin conn user = .error e) : NotLicence e := by
  obtain hu | ⟨u, hu⟩ := except_bind_eq_error h
  · exact requireUser_notLicence hu
  · split_ifs at hu
    obtain rfl := Except.error.inj hu
    exact notLicence_http (by decide)

/-- No guard refuses for the licence. -/
lemma guard_notLicence {g : Guard} {down : Bool} {conn : Conn} {user : Option User} {e : Refusal}
    (h : g.check down conn user = .error e) : NotLicence e := by
  cases g with
  | anyone => exact absurd h (by simp [Guard.check])
  | user => exact requireUser_notLicence (except_map_eq_error h)
  | session => exact requireSession_notLicence (except_map_eq_error h)
  | access => exact requireAccess_notLicence (except_map_eq_error h)
  | admin => exact requireAdmin_notLicence (except_map_eq_error h)
  | accessAdmin =>
    obtain hacc | ⟨u, hadmin⟩ := except_bind_eq_error h
    · exact requireAccess_notLicence hacc
    · exact requireAdmin_notLicence (except_map_eq_error hadmin)

/-- A request that is not served ends with a refusal that the setup has no part in. -/
lemma respond_of_not_served {down : Bool} {req : ApiRequest}
    (h : serve down req.conn req.user = none) :
    ∃ refusal, NotLicence refusal ∧ ∀ s, respond s down req = Prog.fail refusal := by
  unfold serve at h
  cases hroute : findRoute req.conn with
  | none => exact ⟨_, unrouted_notLicence req.conn, fun s => by simp only [respond, hroute]⟩
  | some found =>
    obtain ⟨e, params⟩ := found
    cases hguard : e.guard.check down req.conn req.user with
    | ok v => simp [hroute, hguard] at h
    | error refusal =>
      exact ⟨refusal, guard_notLicence hguard, fun s => by simp only [respond, hroute, hguard]⟩

end Habeny.Requests
