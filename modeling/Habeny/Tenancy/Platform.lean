import Habeny.Deploy.Request
import Habeny.Lib.Transition
import Mathlib.Algebra.GroupWithZero.Nat

/-!
# Requests that create containers, interleaved

Deployments and benchmarks create containers while other requests run.  Each of them lists the
containers that exist, is checked, records its new names as its user's, and hands them to
workers, which create one container after the other.  A deployment does so once and records
with the listing it was checked with; a benchmark is checked once for all its phases and lists
the containers again before each phase.  Between any two of these steps other requests take
theirs.
-/

namespace Habeny.Tenancy

open Habeny.Lib Habeny.Auth Habeny.Deploy

/-- What administrators configure: the licence and the limits. -/
structure Site where
  license : Licensing.Server
  limits : Limits

/-- What a request has still to record. -/
inductive Work where
  /-- A deployment's names: they are recorded with the listing they were checked with. -/
  | checked (names : List Text)
  /-- The names of a benchmark's phases: each phase lists the containers again. -/
  | phases (batches : List (List Text))

/-- The names that are recorded next, and what is left after that. -/
def Work.next : Work → Option (List Text × Work)
  | .checked names => some (names, .phases [])
  | .phases (batch :: rest) => some (batch, .phases rest)
  | .phases [] => none

/-- Whether the containers are listed again before the next names are recorded. -/
def Work.relists : Work → Bool
  | .checked _ => false
  | .phases _ => true

/-- A request that creates containers. -/
structure Req where
  user : Option User
  work : Work
  /-- Its last listing of the containers, until it has been used. -/
  snapshot : Option (List Text)
  accepted : Bool
  /-- The names that its workers have been given and have not finished with. -/
  held : List Text
  /-- The names that it has recorded as its user's, those deleted or reassigned since apart. -/
  recorded : List Text

structure Platform where
  site : Site
  containers : List Text
  owners : Owners
  /-- The requests so far; `none` for one that has finished. -/
  requests : List (Option Req)

/-- The names of a benchmark's phase. -/
def phaseNames (base : Text) (phase agents : ℕ) : List Text :=
  (List.range agents).map fun j =>
    base ++ "-p".toList ++ number phase ++ '-' :: padded (j + 1)

/-- The names of all phases of a benchmark. -/
def benchmarkNames (base : Text) (phases : List ℕ) : List (List Text) :=
  phases.mapIdx fun i agents => phaseNames base i agents

/-- How many containers a request is checked for. -/
def Work.asked (work : Work) (listing : List Text) : ℕ :=
  match work with
  | .checked names => (names.filter fun n => decide (n ∉ listing)).length
  | .phases batches => (batches.map List.length).sum

/-- The checks of a request, with its listing of the containers.  A benchmark's licence check
counts nothing. -/
def checkRequest (site : Site) (owners : Owners) (user : Option User) (work : Work)
    (listing : List Text) : Except Refusal Unit := do
  match work with
  | .checked _ => Licensing.require site.license (work.asked listing) listing.dedup.length
  | .phases _ => Licensing.require site.license 0 0
  checkQuota site.limits owners user (work.asked listing) listing

/-- A deploy request's own checks are these. -/
lemma checkNew_eq_checkRequest (env : Env) (owners : Owners) (user : Option User)
    (req : Request) : checkNew env owners user req
      = checkRequest ⟨env.license, env.limits⟩ owners user (.checked req.names) env.containers :=
  rfl

/-! ## Steps -/

inductive Action where
  /-- A deploy request or a benchmark of a user arrives. -/
  | deploy (user : Option User) (base : Text) (count : ℕ)
  | benchmark (user : Option User) (base : Text) (phases : List ℕ)
  /-- A request lists the containers, is checked, and records its next names. -/
  | list (i : ℕ)
  | check (i : ℕ)
  | record (i : ℕ)
  /-- A worker of a request has created its container, or has given up. -/
  | create (i : ℕ) (n : Text)
  | fail (i : ℕ) (n : Text)
  /-- A request ends. -/
  | finish (i : ℕ)
  /-- A user deletes a container. -/
  | delete (n : Text)
  /-- A container is destroyed outside Habeny, or by a worker that could not start it. -/
  | destroy (n : Text)
  /-- An administrator moves containers to another team, or changes limits or the licence. -/
  | assign (names : List Text) (team : Option ℕ)
  | configure (site : Site)

def Platform.request (s : Platform) (i : ℕ) : Option Req := (s.requests[i]?).join

def Platform.setReq (s : Platform) (i : ℕ) (r : Option Req) : Platform :=
  { s with requests := s.requests.set i r }

def newReq (user : Option User) (work : Work) : Req :=
  { user := user, work := work, snapshot := none, accepted := false, held := [], recorded := [] }

/-- A request has passed its checks.  A benchmark does not use the listing any further. -/
def Req.accept (r : Req) : Req :=
  { r with accepted := true, snapshot := if r.work.relists then none else r.snapshot }

/-- The names that a request records, given its listing. -/
def freshNames (batch listing : List Text) : List Text :=
  batch.filter fun n => decide (n ∉ listing)

/-- A request has recorded its next names, and its workers have them. -/
def Req.recordBatch (r : Req) (batch listing : List Text) (rest : Work) : Req :=
  { r with work := rest, snapshot := none, held := batch,
           recorded := r.recorded ++ freshNames batch listing }

/-- Whether a request lists the containers now: a deployment once, before its checks, and a
benchmark before its checks and, when the workers have finished, before each phase. -/
def Req.mayList (r : Req) : Bool := r.held.isEmpty && (!r.accepted || r.work.relists)

/-- A request that has recorded some names has them no longer. -/
def Req.release (names : List Text) (r : Req) : Req :=
  { r with recorded := r.recorded.filter fun n => decide (n ∉ names) }

def Platform.release (s : Platform) (names : List Text) : Platform :=
  { s with requests := s.requests.map (Option.map (Req.release names)) }

def step (s : Platform) : Action → Option Platform
  | .deploy user base count =>
    some { s with requests :=
      s.requests ++ [some (newReq user (.checked (containerNames base count)))] }
  | .benchmark user base phases =>
    some { s with requests :=
      s.requests ++ [some (newReq user (.phases (benchmarkNames base phases)))] }
  | .list i => do
    let r ← s.request i
    if r.mayList then some (s.setReq i (some { r with snapshot := some s.containers })) else none
  | .check i => do
    let r ← s.request i
    let listing ← r.snapshot
    if r.accepted then none
    else match checkRequest s.site s.owners r.user r.work listing with
      | .ok () => some (s.setReq i (some r.accept))
      | .error _ => some (s.setReq i none)
  | .record i => do
    let r ← s.request i
    let listing ← r.snapshot
    let (batch, rest) ← r.work.next
    if r.accepted && r.held.isEmpty then
      some { s.setReq i (some (r.recordBatch batch listing rest)) with
             owners := record s.owners (freshNames batch listing) r.user }
    else none
  | .create i n => do
    let r ← s.request i
    if n ∈ r.held ∧ n ∉ s.containers then
      some { s.setReq i (some { r with held := r.held.erase n }) with
             containers := n :: s.containers }
    else none
  | .fail i n => do
    let r ← s.request i
    if n ∈ r.held then some (s.setReq i (some { r with held := r.held.erase n })) else none
  | .finish i => do
    let _ ← s.request i
    some (s.setReq i none)
  | .delete n =>
    if n ∈ s.containers then
      some { s.release [n] with containers := s.containers.filter (· ≠ n),
                                owners := forget s.owners [n] }
    else none
  | .destroy n =>
    if n ∈ s.containers then some { s with containers := s.containers.filter (· ≠ n) } else none
  | .assign names team => some { s.release names with owners := assign s.owners names team }
  | .configure site => some { s with site := site }

/-! ## What each step does -/

section Steps

variable {s s' : Platform} {i : ℕ} {n : Text}

lemma getElem?_of_request {r : Req} (h : s.request i = some r) :
    s.requests[i]? = some (some r) := by
  unfold Platform.request at h
  exact Option.join_eq_some_iff.mp h

lemma step_list (h : step s (.list i) = some s') : ∃ r, s.request i = some r ∧
    r.mayList = true ∧ s' = s.setReq i (some { r with snapshot := some s.containers }) := by
  obtain ⟨r, hr, h⟩ := Option.bind_eq_some_iff.mp h
  refine ⟨r, hr, ?_⟩
  by_cases hmay : r.mayList = true
  · rw [if_pos hmay, Option.some.injEq] at h
    exact ⟨hmay, h.symm⟩
  · simp [hmay] at h

lemma step_check (h : step s (.check i) = some s') : ∃ r listing, s.request i = some r ∧
    r.snapshot = some listing ∧ r.accepted = false ∧
      (checkRequest s.site s.owners r.user r.work listing = .ok () ∧
          s' = s.setReq i (some r.accept) ∨
        (∃ e, checkRequest s.site s.owners r.user r.work listing = .error e) ∧
          s' = s.setReq i none) := by
  obtain ⟨r, hr, h⟩ := Option.bind_eq_some_iff.mp h
  obtain ⟨listing, hl, h⟩ := Option.bind_eq_some_iff.mp h
  refine ⟨r, listing, hr, hl, ?_⟩
  cases hacc : r.accepted with
  | true => simp [hacc] at h
  | false =>
    simp only [hacc, Bool.false_eq_true, if_false] at h
    cases hc : checkRequest s.site s.owners r.user r.work listing with
    | ok u =>
      simp only [hc, Option.some.injEq] at h
      exact ⟨rfl, .inl ⟨rfl, h.symm⟩⟩
    | error e =>
      simp only [hc, Option.some.injEq] at h
      exact ⟨rfl, .inr ⟨⟨e, rfl⟩, h.symm⟩⟩

lemma step_record (h : step s (.record i) = some s') : ∃ r listing batch rest,
    s.request i = some r ∧ r.snapshot = some listing ∧ r.work.next = some (batch, rest) ∧
      r.accepted = true ∧ r.held = [] ∧
      s' = { s.setReq i (some (r.recordBatch batch listing rest)) with
             owners := record s.owners (freshNames batch listing) r.user } := by
  obtain ⟨r, hr, h⟩ := Option.bind_eq_some_iff.mp h
  obtain ⟨listing, hl, h⟩ := Option.bind_eq_some_iff.mp h
  obtain ⟨⟨batch, rest⟩, hb, h⟩ := Option.bind_eq_some_iff.mp h
  dsimp only at h
  refine ⟨r, listing, batch, rest, hr, hl, hb, ?_⟩
  by_cases hacc : (r.accepted && r.held.isEmpty) = true
  · rw [if_pos hacc, Option.some.injEq] at h
    rw [Bool.and_eq_true, List.isEmpty_iff] at hacc
    exact ⟨hacc.1, hacc.2, h.symm⟩
  · simp [hacc] at h

lemma step_create (h : step s (.create i n) = some s') : ∃ r, s.request i = some r ∧
    n ∈ r.held ∧ n ∉ s.containers ∧
      s' = { s.setReq i (some { r with held := r.held.erase n }) with
             containers := n :: s.containers } := by
  obtain ⟨r, hr, h⟩ := Option.bind_eq_some_iff.mp h
  by_cases hn : n ∈ r.held ∧ n ∉ s.containers
  · rw [if_pos hn, Option.some.injEq] at h
    exact ⟨r, hr, hn.1, hn.2, h.symm⟩
  · simp [hn] at h

lemma step_fail (h : step s (.fail i n) = some s') : ∃ r, s.request i = some r ∧
    n ∈ r.held ∧ s' = s.setReq i (some { r with held := r.held.erase n }) := by
  obtain ⟨r, hr, h⟩ := Option.bind_eq_some_iff.mp h
  by_cases hn : n ∈ r.held
  · rw [if_pos hn, Option.some.injEq] at h
    exact ⟨r, hr, hn, h.symm⟩
  · simp [hn] at h

lemma step_finish (h : step s (.finish i) = some s') : ∃ r, s.request i = some r ∧
    s' = s.setReq i none := by
  obtain ⟨r, hr, h⟩ := Option.bind_eq_some_iff.mp h
  exact ⟨r, hr, (Option.some.inj h).symm⟩

lemma step_delete (h : step s (.delete n) = some s') : n ∈ s.containers ∧
    s' = { s.release [n] with containers := s.containers.filter (· ≠ n),
                              owners := forget s.owners [n] } := by
  by_cases hn : n ∈ s.containers
  · rw [step, if_pos hn, Option.some.injEq] at h
    exact ⟨hn, h.symm⟩
  · simp [step, hn] at h

lemma step_destroy (h : step s (.destroy n) = some s') : n ∈ s.containers ∧
    s' = { s with containers := s.containers.filter (· ≠ n) } := by
  by_cases hn : n ∈ s.containers
  · rw [step, if_pos hn, Option.some.injEq] at h
    exact ⟨hn, h.symm⟩
  · simp [step, hn] at h

end Steps

end Habeny.Tenancy
