import Habeny.Hosts.Tls
import Habeny.Lib.JsonValue

/-!
# What may come of asking a host

A connection, a request and the parsing of its answer may raise exceptions of several classes.
Some of them become a `HostError`, and that is the one class which the callers handle; the others
go through.  `getJson_handled` says for which behaviours of the other end nothing but a
`HostError` comes of a request for an object.
-/

namespace Habeny.Hosts.Reachability

open Habeny.Lib

/-! ## Exceptions -/

/-- The classes of exceptions that some handler tells apart. -/
inductive Class where
  /-- `OSError`, with the failures of TLS -/
  | os
  /-- `ssl.SSLCertVerificationError`, an `OSError` and a `ValueError` -/
  | certificate
  /-- `http.client.HTTPException` -/
  | http
  /-- `ValueError` -/
  | value
  | other
  deriving DecidableEq

/-- An exception, and what it says. -/
structure Raised where
  kind : Class
  text : Text
  deriving DecidableEq

def Raised.isOsError (e : Raised) : Bool := decide (e.kind = .os ∨ e.kind = .certificate)

def Raised.isValueError (e : Raised) : Bool := decide (e.kind = .value ∨ e.kind = .certificate)

/-- What `call` makes a `HostError` of. -/
def Raised.isBroken (e : Raised) : Bool := e.isOsError || decide (e.kind = .http)

/-- How a request fails. -/
inductive Failure where
  /-- a `HostError` -/
  | host (text : Text)
  /-- any other exception -/
  | raised (e : Raised)
  deriving DecidableEq

def Failure.isHostError : Failure → Bool
  | .host _ => true
  | .raised _ => false

/-! ## The other end -/

/-- How the other end behaves towards one request: the fingerprint of the certificate that it
presents, the one of the second connection where that is made, and the status and the body with
which it answers. -/
structure Peer where
  connect : Except Raised Text
  presentedAgain : Except Raised Text
  answer : Text → Except Raised (ℕ × List UInt8)

/-- Parts of an address. -/
structure SplitUrl where
  scheme : Text
  netloc : Text
  path : Text
  hostname : Option Text

/-- What is used of the standard library: parsing JSON, the text of a value, the text that the
database stores for a value (if it takes it; nothing for `None`), capitals, and the parts of an
address. -/
structure Env where
  loads : List UInt8 → Except Raised JsonValue
  str : JsonValue → Text
  bind : JsonValue → Option (Option Text)
  upper : Text → Text
  urlsplit : Text → Except Raised SplitUrl

/-! ## Requests -/

def cantConnect (url : Text) (e : Raised) : Failure :=
  .host ("Can't connect to ".toList ++ url ++ ": ".toList ++ e.text)

/-- The fingerprint of the certificate that an address presents (`peer_fingerprint`). -/
def Peer.fingerprint (p : Peer) (url : Text) : Except Failure Text :=
  match p.presentedAgain with
  | .ok fp => .ok fp
  | .error e => .error (if e.isOsError then cantConnect url e else .raised e)

/-- `FingerprintNeeded`, which is a `HostError` -/
def fingerprintNeeded (fp : Text) : Failure :=
  .host ("The host's certificate isn't from a trusted authority. ".toList ++
    "Check this fingerprint on the host ".toList ++
    "(`habeny tls fingerprint` there) and confirm it: ".toList ++ fp)

def differentCertificate (url presented fp : Text) : Failure :=
  .host (url ++ " presented a different certificate (".toList ++ presented ++
    ") than the one confirmed (".toList ++ fp ++
    "). If the host's certificate was replaced on purpose, update the ".toList ++
    "fingerprint; otherwise something is intercepting the connection.".toList)

/-- Connect, with the certificate checked (`_open`).  In the clear nothing is caught. -/
def openConn (p : Peer) (h : Host) : Except Failure Unit :=
  if isHttps h.url = false then
    match p.connect with
    | .ok _ => .ok ()
    | .error e => .error (.raised e)
  else
    match p.connect with
    | .ok presented =>
      match h.pin with
      | some fp =>
        if presented = fp then .ok () else .error (differentCertificate h.url presented fp)
      | none => .ok ()
    | .error e =>
      if e.kind = .certificate then
        match p.fingerprint h.url with
        | .ok fp => .error (fingerprintNeeded fp)
        | .error f => .error f
      else if e.kind = .os then .error (cantConnect h.url e)
      else .error (.raised e)

/-- `MAX_BODY` -/
def maxBody : ℕ := 64 * 1024 * 1024

/-- One request to a host's API (`call`). -/
def call (p : Peer) (h : Host) (path : Text) : Except Failure (ℕ × List UInt8) := do
  openConn p h
  match p.answer (callTarget path []) with
  | .error e => .error (if e.isBroken then .host (h.url ++ ": ".toList ++ e.text) else .raised e)
  | .ok (status, body) =>
    let data := body.take (maxBody + 1)
    if maxBody < data.length then .error (.host "the host's response is too large to relay".toList)
    else .ok (status, data)

/-- `value.get(key)`, which only an object has -/
def getKey (key : CodeText) : JsonValue → Except Raised JsonValue
  | .dict entries => .ok ((entries.lookup key).getD .null)
  | _ => .error ⟨.other, "object has no attribute 'get'".toList⟩

/-- `data or b"{}"` -/
def orEmptyObject (data : List UInt8) : List UInt8 := if data = [] then [0x7b, 0x7d] else data

/-- A request whose answer is read (`get_json`). -/
def getJson (env : Env) (p : Peer) (h : Host) (path : Text) : Except Failure JsonValue := do
  let (status, data) ← call p h path
  match env.loads (orEmptyObject data) with
  | .error e =>
    .error (if e.isValueError then
      .host (h.url ++ " didn't answer like a Habeny server (HTTP ".toList ++
        Nat.toDigits 10 status ++ ")".toList)
    else .raised e)
  | .ok payload =>
    if status = 401 then
      .error (.host "the host rejected the API token (revoked or expired?)".toList)
    else if 400 ≤ status then do
      let detail ← (getKey (.lit "detail") payload).mapError .raised
      .error (.host ("HTTP ".toList ++ Nat.toDigits 10 status ++ ": ".toList ++
        env.str (if detail.truthy then detail else payload)))
    else .ok payload

/-- What a host says about itself and the token. -/
structure Info where
  version : JsonValue
  role : JsonValue
  user : JsonValue

/-- Check that a host answers, the token works there, and what role it has (`probe`), with the
other end of each of the two requests. -/
def probe (env : Env) (first second : Peer) (h : Host) : Except Failure Info := do
  let status ← getJson env first h "auth/status".toList
  let data ← (getKey (.lit "data") status).mapError .raised
  let user ← (getKey (.lit "user") (if data.truthy then data else .dict [])).mapError .raised
  if user.truthy = false then .error (.host "the host didn't accept the API token".toList)
  else do
    let health ← getJson env second h "system/health".toList
    let version ← (getKey (.lit "version") health).mapError .raised
    let role ← (getKey (.lit "role") user).mapError .raised
    let username ← (getKey (.lit "username") user).mapError .raised
    .ok ⟨version, role, username⟩

/-! ## Which failures are handled -/

/-- The other end takes the connection, and presents the pinned certificate if one is pinned. -/
def Peer.connects (p : Peer) (h : Host) : Bool :=
  match p.connect with
  | .ok presented => !isHttps h.url || h.pin.all fun fp => decide (presented = fp)
  | .error _ => false

/-- A failure to connect is handled: over TLS, those of the socket and of the certificate. -/
def Peer.connectHandled (p : Peer) (h : Host) : Bool :=
  match p.connect with
  | .ok _ => true
  | .error e =>
    isHttps h.url && (decide (e.kind = .os) || decide (e.kind = .certificate) &&
      match p.presentedAgain with
      | .ok _ => true
      | .error e => e.isOsError)

def isObject : JsonValue → Bool
  | .dict _ => true
  | _ => false

/-- What is made of an answer is handled: it is broken off, is too large, is no JSON, rejects the
token, or is an object. -/
def Env.answerHandled (env : Env) : Except Raised (ℕ × List UInt8) → Bool
  | .error e => e.isBroken
  | .ok (status, body) =>
    decide (maxBody < body.length) || match env.loads (orEmptyObject body) with
      | .error e => e.isValueError
      | .ok payload => decide (status = 401) || isObject payload

/-- Asked for an object, the other end gives one or fails in a way that is handled. -/
def Peer.handled (env : Env) (p : Peer) (h : Host) (path : Text) : Bool :=
  p.connectHandled h && (!p.connects h || env.answerHandled (p.answer (callTarget path [])))

/-- The result is an object or a `HostError`. -/
def resultHandled : Except Failure JsonValue → Bool
  | .ok payload => isObject payload
  | .error f => f.isHostError

variable {env : Env} {p : Peer} {h : Host} {path : Text}

lemma openConn_of_connects (hc : p.connects h = true) : openConn p h = .ok () := by
  rw [Peer.connects] at hc
  rw [openConn]
  cases hconnect : p.connect with
  | error e => simp [hconnect] at hc
  | ok presented =>
    rw [hconnect] at hc
    cases hpin : h.pin with
    | none => simp
    | some fp =>
      cases htls : isHttps h.url with
      | false => simp
      | true =>
        have hsame : presented = fp := by simpa [htls, hpin] using hc
        simp [hsame]

/-- A connection that is not made fails with a `HostError` exactly if the failure is handled. -/
lemma openConn_of_not_connects (hc : p.connects h = false) :
    ∃ f, openConn p h = .error f ∧ f.isHostError = p.connectHandled h := by
  rw [Peer.connects] at hc
  rw [openConn, Peer.connectHandled]
  cases hconnect : p.connect with
  | ok presented =>
    rw [hconnect] at hc
    obtain ⟨htls, fp, hpin, hother⟩ :
        isHttps h.url = true ∧ ∃ fp, h.pin = some fp ∧ presented ≠ fp := by
      cases hpin : h.pin <;> simp_all
    simp [htls, hpin, hother, differentCertificate, Failure.isHostError]
  | error e =>
    cases htls : isHttps h.url with
    | false => exact ⟨.raised e, by simp, rfl⟩
    | true =>
      by_cases hcertificate : e.kind = .certificate
      · cases hagain : p.presentedAgain with
        | ok fp =>
          simp [hcertificate, Peer.fingerprint, hagain, fingerprintNeeded, Failure.isHostError]
        | error e' =>
          cases hos : e'.isOsError <;>
            simp [hcertificate, Peer.fingerprint, hagain, hos, cantConnect, Failure.isHostError]
      · by_cases hos : e.kind = .os
        · simp [hos, cantConnect, Failure.isHostError]
        · simp [hcertificate, hos, Failure.isHostError]

/-- What is made of the answer, once there is a connection. -/
lemma getJson_of_connects (hc : p.connects h = true) :
    resultHandled (getJson env p h path) = env.answerHandled (p.answer (callTarget path [])) := by
  rw [getJson, call, openConn_of_connects hc]
  cases hanswer : p.answer (callTarget path []) with
  | error e =>
    cases hb : e.isBroken <;>
      simp [Env.answerHandled, resultHandled, Failure.isHostError, bind, Except.bind, hb]
  | ok r =>
    obtain ⟨status, body⟩ := r
    by_cases hlong : maxBody < body.length
    · have hcut : maxBody < (body.take (maxBody + 1)).length := by
        rw [List.length_take]
        omega
      simp only [bind, Except.bind, hcut, if_true, resultHandled, Failure.isHostError,
        Env.answerHandled, hlong, decide_true, Bool.true_or]
    · have hwhole : body.take (maxBody + 1) = body := List.take_of_length_le (by omega)
      simp only [bind, Except.bind, hwhole, hlong, if_false, Env.answerHandled, decide_false,
        Bool.false_or]
      cases hloads : env.loads (orEmptyObject body) with
      | error e => cases hv : e.isValueError <;> simp [resultHandled, Failure.isHostError, hv]
      | ok payload =>
        by_cases h401 : status = 401
        · simp [h401, resultHandled, Failure.isHostError]
        · by_cases h400 : 400 ≤ status
          · cases payload <;>
              simp [h401, h400, resultHandled, Failure.isHostError, getKey, Except.mapError,
                isObject]
          · simp [h401, h400, resultHandled]

/-- **What is handled**: a request gives an object or a `HostError` exactly if the other end
behaves as in `Peer.handled`. -/
theorem getJson_handled : resultHandled (getJson env p h path) = p.handled env h path := by
  cases hc : p.connects h with
  | true =>
    have hconnect : p.connectHandled h = true := by
      rw [Peer.connects] at hc
      rw [Peer.connectHandled]
      cases hconnect : p.connect with
      | ok presented => rfl
      | error e => simp [hconnect] at hc
    rw [getJson_of_connects hc, Peer.handled, hconnect, hc, Bool.true_and, Bool.not_true,
      Bool.false_or]
  | false =>
    obtain ⟨f, hopen, hhandled⟩ := openConn_of_not_connects hc
    rw [getJson, call, hopen, Peer.handled, hc, ← hhandled, Bool.not_false, Bool.true_or,
      Bool.and_true]
    rfl

end Habeny.Hosts.Reachability
