import Habeny.Http.Routes

/-!
# Relaying a request to another host

A console keeps other Habeny servers as hosts, each with an API token, and relays API calls
and WebSockets to them.  This file models the HTTP relay up to the request it puts on the
wire: how the endpoint is reached, which host a user may use, which paths stay here
(`localOnly`), the request target that is built, and what the HTTP client refuses to send.
-/

namespace Habeny.Hosts

open Habeny.Lib Habeny.Auth Habeny.Http

/-! ## Hosts -/

/-- A registered host, with its token revealed. -/
structure Host where
  id : ℕ
  name : Text
  url : Text
  token : Text
  fingerprint : Option Text
  teamId : Option ℕ
  deriving DecidableEq

/-- Account and console administration stay on each server itself (`LOCAL_ONLY`). -/
def localOnly : List Text :=
  ["auth".toList, "users".toList, "hosts".toList, "teams".toList, "notifications".toList,
    "system/backups".toList]

/-- A host of a team is for that team and for administrators, any other for everyone. -/
def usableBy (host : Host) (user : Option User) : Bool :=
  match user with
  | none => true
  | some u => decide (u.role = .admin ∨ host.teamId = none ∨ host.teamId = u.teamId)

/-- The host with an id, if the user may use it (`_usable`). -/
def usable (hosts : List Host) (hostId : ℤ) (user : Option User) : Except Refusal Host :=
  match hosts.find? fun h => decide ((h.id : ℤ) = hostId) with
  | some host =>
    if usableBy host user then .ok host else .error (.http 404 "Host not found".toList)
  | none => .error (.http 404 "Host not found".toList)

/-! ## The request on the wire -/

/-- A request as it is sent to a host. -/
structure Sent where
  url : Text
  method : Method
  target : Text
  headers : List (Text × Text)
  body : Option (List UInt8)
  deriving DecidableEq

/-- The request target that `call` builds. -/
def callTarget (path query : Text) : Text :=
  "/api/".toList ++ path.lstrip '/' ++ (if query = [] then [] else '?' :: query)

/-- The characters that the HTTP client takes in no request target: controls and spaces. -/
def isControlOrSpace (c : Char) : Bool := decide (c.toNat ≤ 0x20 ∨ c.toNat = 0x7f)

/-- Whether the HTTP client sends a request target. -/
def sendable (target : Text) : Prop :=
  (∀ c ∈ target, isControlOrSpace c = false) ∧ IsAscii target

instance (target : Text) : Decidable (sendable target) :=
  @instDecidableAnd _ _ (List.decidableBAll (fun c => isControlOrSpace c = false) target) _

/-- What becomes of a relayed call. -/
inductive Relayed where
  /-- an HTTP error of the relay itself -/
  | refused (r : Refusal)
  /-- the client refuses the target: an invalid URL, or one that is not ASCII -/
  | unsendable
  | sent (s : Sent)
  deriving DecidableEq

/-- The request headers that are passed on. -/
def relayedRequestHeaders : List Text := ["content-type".toList, "accept".toList]

/-- What the relay reads of a request. -/
structure Incoming where
  method : Method
  target : Text
  wantsHtml : Bool
  query : Text
  headers : List (Text × Text)
  requestId : Option Text
  body : List UInt8

/-- The headers of a relayed call: the token, what the client asked for, and the request's ID. -/
def relayHeaders (host : Host) (req : Incoming) : List (Text × Text) :=
  [("Authorization".toList, "Bearer ".toList ++ host.token),
    ("Accept".toList, "application/json".toList)]
    ++ req.headers.filter (fun h => decide (h.1 ∈ relayedRequestHeaders))
    ++ (match req.requestId with
      | some rid => [("X-Request-ID".toList, rid)]
      | none => [])

/-- The request of a relayed call (`call`). -/
def callRequest (host : Host) (path : Text) (req : Incoming) : Sent :=
  { url := host.url, method := req.method, target := callTarget path req.query,
    headers := relayHeaders host req,
    body := if req.body = [] then none else some req.body }

/-- The refusal of a path that stays here. -/
def localOnlyRefusal : Refusal :=
  .http 403 "Accounts, tokens, teams and hosts are managed on each server itself".toList

/-- Forward an API call to a host the user may use. -/
def relayTo (host : Host) (path : Text) (req : Incoming) : Relayed :=
  if Text.startsWithAny localOnly (path.strip '/') then .refused localOnlyRefusal
  else if sendable (callTarget path req.query) then .sent (callRequest host path req)
  else .unsendable

/-- Forward an API call to a host (`relay`). -/
def relay (hosts : List Host) (hostId : ℤ) (path : Text) (req : Incoming)
    (user : Option User) : Relayed :=
  match usable hosts hostId user with
  | .error r => .refused r
  | .ok host => relayTo host path req

/-- The request that was sent, if one was. -/
def Relayed.request : Relayed → Option Sent
  | .sent s => some s
  | _ => none

lemma relayTo_request_eq_some {host : Host} {path : Text} {req : Incoming} {s : Sent} :
    (relayTo host path req).request = some s ↔
      Text.startsWithAny localOnly (path.strip '/') = false ∧
        sendable (callTarget path req.query) ∧ s = callRequest host path req := by
  unfold relayTo
  split_ifs with hl hs
  · simp [Relayed.request, hl]
  · simp [Relayed.request, hl, hs, eq_comm]
  · simp [Relayed.request, hs]

lemma relay_request (hosts : List Host) (hostId : ℤ) (path : Text) (req : Incoming)
    (user : Option User) :
    (relay hosts hostId path req user).request
      = (usable hosts hostId user).toOption.bind fun host => (relayTo host path req).request := by
  unfold relay
  cases usable hosts hostId user <;> rfl

/-! ## Reaching the relay -/

/-- A Habeny server: its hosts, its frontend, whether it is stopping, and how the framework
reads an integer path parameter. -/
structure Server where
  hosts : List Host
  files : StaticDir
  shuttingDown : Bool
  parseInt : Text → Option ℤ

/-- The path that the server routes for a request it receives. -/
def Server.incomingPath (srv : Server) (req : Incoming) : Text :=
  let path := unquote (pathPart req.target)
  stripApiPrefix (isPageLoad srv.files req.method req.wantsHtml path) path

/-- The arguments with which a request reaches the relay: it is routed there, its user gets
past the guard and the host's id is an integer. -/
def Server.relayArgs (srv : Server) (req : Incoming) (user : Option User) : Option (ℤ × Text) :=
  match serve srv.shuttingDown (.http req.method (srv.incomingPath req)) user with
  | some (e, [hostId, path]) =>
    if e.endpoint = .relay then (srv.parseInt hostId).map (·, path) else none
  | _ => none

/-- The request that a server sends on to a host when it receives a request. -/
def Server.forwards (srv : Server) (req : Incoming) (user : Option User) : Option Sent :=
  (srv.relayArgs req user).bind fun (hostId, path) =>
    (relay srv.hosts hostId path req user).request

/-- The host and the path that a request asks to be relayed to, when its user may use the
host. -/
def Server.relayCall (srv : Server) (req : Incoming) (user : Option User) :
    Option (Host × Text) :=
  (srv.relayArgs req user).bind fun (hostId, path) =>
    (usable srv.hosts hostId user).toOption.map (·, path)

/-- A request is sent on exactly when it asks for a relayed call whose path does not stay here
and whose target the client sends. -/
lemma Server.forwards_eq_some_iff {srv : Server} {req : Incoming} {user : Option User}
    {s : Sent} :
    srv.forwards req user = some s ↔
      ∃ host path, srv.relayCall req user = some (host, path) ∧
        Text.startsWithAny localOnly (path.strip '/') = false ∧
        sendable (callTarget path req.query) ∧ s = callRequest host path req := by
  unfold Server.forwards Server.relayCall
  rcases srv.relayArgs req user with _ | ⟨hostId, path⟩
  · simp
  · simp only [Option.bind_some, relay_request]
    cases (usable srv.hosts hostId user).toOption with
    | none => simp
    | some host =>
      rw [Option.bind_some, relayTo_request_eq_some]
      simp

/-! ## The host's answer -/

/-- An HTTP answer. -/
structure Answer where
  status : ℕ
  headers : List (Text × Text)
  body : Text
  deriving DecidableEq

/-- The answer's headers that are passed back. -/
def relayedResponseHeaders : List Text :=
  ["content-type".toList, "content-disposition".toList, "retry-after".toList]

/-- The body that says the host rejected the token. -/
def rejectedTokenBody : Text :=
  "\x7b\"detail\": \"The host rejected this console's API token (revoked or expired?). An admin can replace it on the Hosts page.\"\x7d".toList

/-- The answer to the user: a rejected token is not the user's session expiring. -/
def relayAnswer (a : Answer) : Answer :=
  let a' : Answer :=
    if a.status = 401 then
      { status := 502, body := rejectedTokenBody,
        headers := a.headers.filter (fun h => decide (h.1 ≠ "content-type".toList))
          ++ [("content-type".toList, "application/json".toList)] }
    else a
  { a' with
    headers := a'.headers.filter (fun h => decide (h.1 ∈ relayedResponseHeaders))
      ++ (a'.headers.filter (fun h => decide (h.1 = "x-request-id".toList))).map
        (fun h => ("X-Remote-Request-ID".toList, h.2)) }

/-- The user is never told that their own session expired by a host's answer. -/
lemma relayAnswer_status_ne (a : Answer) : (relayAnswer a).status ≠ 401 := by
  unfold relayAnswer
  dsimp only
  split_ifs with h
  · simp
  · exact h

end Habeny.Hosts
