import Habeny.Hosts.Relay

/-!
# What the relay's block list lets through

The relay refuses the paths that begin with a local-only word, and it looks at the path as
this server decoded it.  The host decodes what it is sent once more, so that a word whose
characters are still escaped here is plain there.  `relay_keeps_localOnly_iff` says for which
requests the block list holds: for all but those whose path, once its leading slashes are
gone, spells a local-only word with an escape in it.
-/

namespace Habeny.Hosts

open Habeny.Lib Habeny.Auth Habeny.Http

/-- A routed path is one of the local-only routes, or lies below one. -/
def servesLocalOnly (path : Text) : Prop :=
  ∃ w ∈ localOnly, path = '/' :: w ∨ '/' :: (w ++ ['/']) <+: path

/-- A path does not begin with a local-only word, but up to its query it spells one, with
escapes, to its end or to a slash. -/
def disguised (path : Text) : Prop :=
  Text.startsWithAny localOnly (path.lstrip '/') = false ∧
    ∃ w ∈ localOnly, spelledPath w (pathPart (path.lstrip '/')) = true

instance (path : Text) : Decidable (disguised path) :=
  inferInstanceAs (Decidable (_ ∧ ∃ w ∈ localOnly, _))

lemma localOnly_ascii : ∀ w ∈ localOnly, IsAscii w := by decide

lemma localOnly_getLast : ∀ w ∈ localOnly, ∀ d ∈ w.getLast?, d ≠ '/' := by
  have hlast : ∀ w ∈ localOnly, w.getLast? ≠ some '/' := by decide
  rintro w hw d hd rfl
  exact hlast w hw hd

/-- Trailing slashes make no difference to the block list. -/
lemma startsWithAny_localOnly (path : Text) :
    Text.startsWithAny localOnly (path.strip '/')
      = Text.startsWithAny localOnly (path.lstrip '/') :=
  Text.startsWithAny_strip localOnly_getLast path

/-! ## The path the host routes -/

lemma pathPart_append_query (s query : Text) :
    pathPart (s ++ (if query = [] then [] else '?' :: query)) = pathPart s := by
  induction s with
  | nil => split_ifs <;> simp [pathPart]
  | cons c s ih =>
    rw [pathPart] at ih
    by_cases hc : c = '?'
    · simp [pathPart, hc]
    · simpa [pathPart, hc] using ih

/-- The path that the host routes is the relayed path, decoded once more. -/
lemma callTarget_eq (path query : Text) : callTarget path query =
    "/api/".toList ++ (path.lstrip '/' ++ if query = [] then [] else '?' :: query) :=
  List.append_assoc _ _ _

lemma routedPath_callTarget (path query : Text) :
    routedPath (callTarget path query) = '/' :: unquote (pathPart (path.lstrip '/')) := by
  rw [callTarget_eq, routedPath_api, pathPart_append_query]

lemma isAscii_pathPart_of_sendable {path query : Text} (h : sendable (callTarget path query)) :
    IsAscii (pathPart (path.lstrip '/')) := by
  intro c hc
  have hmem : c ∈ path.lstrip '/' := (List.takeWhile_prefix _).mem hc
  exact h.2 c (by simp [callTarget_eq, hmem])

/-- What the host serves is local-only exactly when the path it is sent spells a local-only
word. -/
lemma servesLocalOnly_iff_spelledPath {s : Text} (hs : IsAscii s) :
    servesLocalOnly ('/' :: unquote s) ↔ ∃ w ∈ localOnly, spelledPath w s = true := by
  refine exists_congr fun w => and_congr_right fun hw => ?_
  rw [← unquote_eq_or_below_iff (localOnly_ascii w hw) hs]
  simp [List.cons_prefix_cons]

/-! ## The block list -/

lemma servesLocalOnly_callTarget {path query : Text} (h : sendable (callTarget path query)) :
    servesLocalOnly (routedPath (callTarget path query)) ↔
      ∃ w ∈ localOnly, spelledPath w (pathPart (path.lstrip '/')) = true := by
  rw [routedPath_callTarget, servesLocalOnly_iff_spelledPath (isAscii_pathPart_of_sendable h)]

/-- A sendable path in disguise is sent on and served as a local-only route. -/
lemma forwards_of_disguised {srv : Server} {req : Incoming} {user : Option User} {host : Host}
    {path : Text} (hcall : srv.relayCall req user = some (host, path))
    (hsend : sendable (callTarget path req.query)) (hdis : disguised path) :
    srv.forwards req user = some (callRequest host path req) ∧
      servesLocalOnly (routedPath (callRequest host path req).target) := by
  refine ⟨Server.forwards_eq_some_iff.mpr ⟨host, path, hcall, ?_, hsend, rfl⟩, ?_⟩
  · rw [startsWithAny_localOnly]
    exact hdis.1
  · exact (servesLocalOnly_callTarget hsend).mpr hdis.2

/-- What the block list lets through and the host serves as local-only was in disguise. -/
lemma disguised_of_forwards {srv : Server} {req : Incoming} {user : Option User} {s : Sent}
    (hfwd : srv.forwards req user = some s) (hserve : servesLocalOnly (routedPath s.target)) :
    ∃ host path, srv.relayCall req user = some (host, path) ∧
      sendable (callTarget path req.query) ∧ disguised path := by
  obtain ⟨host, path, hcall, hblock, hsend, rfl⟩ := Server.forwards_eq_some_iff.mp hfwd
  rw [startsWithAny_localOnly] at hblock
  exact ⟨host, path, hcall, hsend, hblock, (servesLocalOnly_callTarget hsend).mp hserve⟩

/-- A path without an escape is never in disguise: the block list catches every plain
spelling, whatever slashes, dots and prefixes stand around it. -/
lemma not_disguised_of_no_escape {path : Text} (h : '%' ∉ path) : ¬disguised path := by
  rintro ⟨hblock, w, hw, hspell⟩
  have hpart : '%' ∉ pathPart (path.lstrip '/') := fun hmem =>
    h (Text.mem_of_mem_lstrip ((List.takeWhile_prefix _).mem hmem))
  have hprefix : w <+: pathPart (path.lstrip '/') := by
    rw [spelledPath] at hspell
    cases hr : spelled w (pathPart (path.lstrip '/')) with
    | none => simp [hr] at hspell
    | some r => exact ⟨r, (eq_append_of_spelled hpart hr).symm⟩
  have hstarts : Text.startsWithAny localOnly (path.lstrip '/') = true :=
    Text.startsWithAny_iff.mpr ⟨w, hw, hprefix.trans (List.takeWhile_prefix _)⟩
  simp [hblock] at hstarts

/-! ## A request that gets through -/

/-- A decimal number, as an integer path parameter. -/
def decimal (t : Text) : Option ℤ :=
  if t ≠ [] ∧ t.all Char.isDigit then
    some (t.foldl (fun n c => 10 * n + ((c.toNat - 48 : ℕ) : ℤ)) 0)
  else none

/-- A host that everyone may use. -/
def sharedHost : Host :=
  { id := 1, name := "branch".toList, url := "https://branch:8443".toList,
    token := "hby_t".toList, fingerprint := none, teamId := none }

/-- A server with one host that everyone may use. -/
def consoleServer : Server :=
  { hosts := [sharedHost], files := ⟨false, fun _ => false⟩, shuttingDown := false,
    parseInt := decimal }

/-- A request for the accounts' status of the host, with one letter escaped twice. -/
def disguisedRequest : Incoming :=
  { method := .get, target := "/api/hosts/1/api/%2561uth/status".toList, wantsHtml := false,
    query := [], headers := [], requestId := none, body := [] }

/-- A signed-in viewer. -/
def viewer : User :=
  { id := 7, username := "vera".toList, role := .viewer, isAdmin := false, teamId := none,
    auth := .session }

end Habeny.Hosts
