import Habeny.Tenancy.Quota

/-!
# Who owns a name that has been recorded

Owners are stored under the container's name, and recording replaces what is stored.  A request
records the names that its listing of the containers does not have, so a name that another
request has recorded and not yet created, or has created since the listing, is recorded anew
for the other user.  Where no name is recorded while it is another user's (`Unclaimed`), a name
stays its user's until it is deleted or reassigned, or the request ends without it.
-/

namespace Habeny.Tenancy

open Habeny.Lib Habeny.Auth

/-- A request of a user is about to record a name. -/
def Records (s : Platform) (i : ℕ) (user : Option User) (n : Text) : Prop :=
  ∃ r listing batch rest, s.request i = some r ∧ r.snapshot = some listing ∧
    r.work.next = some (batch, rest) ∧ r.user = user ∧ n ∈ freshNames batch listing

/-- The steps after which a name that a request has recorded is nobody's concern: it is deleted
or reassigned, or the request has ended and there is no container of that name. -/
def Releases (i : ℕ) (n : Text) (s : Platform) : Action → Prop
  | .delete m => m = n
  | .destroy m => m = n ∧ s.request i = none
  | .assign names _ => n ∈ names
  | .finish j => j = i ∧ n ∉ s.containers
  | _ => False

/-- No name is recorded that is another user's: none of the recorded names is an existing
container of another user, or has been recorded by a running request of another user. -/
def Unclaimed (s : Platform) : Action → Prop
  | .record j => ∀ user n, Records s j user n →
      (n ∈ s.containers → s.owners.userOf n = user.map User.id) ∧
        ∀ k r, s.request k = some r → n ∈ r.recorded → r.user.map User.id = user.map User.id
  | _ => True

/-! ## Requests after a change -/

lemma lt_of_request {s : Platform} {i : ℕ} {r : Req} (h : s.request i = some r) :
    i < s.requests.length :=
  (List.getElem?_eq_some_iff.mp (getElem?_of_request h)).1

lemma request_setReq_self {s : Platform} {i : ℕ} {r : Req} (h : s.request i = some r)
    (o : Option Req) : (s.setReq i o).request i = o := by
  rw [Platform.request, Platform.setReq, List.getElem?_set_self (lt_of_request h), Option.join_some]

lemma request_setReq_of_ne {s : Platform} {i j : ℕ} (h : i ≠ j) (o : Option Req) :
    (s.setReq j o).request i = s.request i := by
  rw [Platform.request, Platform.setReq, List.getElem?_set_ne h.symm, Platform.request]

lemma request_append {s : Platform} {i : ℕ} (h : i < s.requests.length) (o : Option Req) :
    { s with requests := s.requests ++ [o] }.request i = s.request i := by
  rw [Platform.request, List.getElem?_append_left h, Platform.request]

lemma request_release (s : Platform) (names : List Text) (i : ℕ) :
    (s.release names).request i = (s.request i).map (Req.release names) := by
  rw [Platform.request, Platform.release, List.getElem?_map, Platform.request]
  rcases s.requests[i]? with - | - | r <;> rfl

/-! ## The invariant -/

/-- A name is still with the user whose request has recorded it: the request runs and has it,
or it has ended and the container exists. -/
structure Kept (i : ℕ) (user : Option User) (n : Text) (s : Platform) : Prop where
  owner : s.owners.userOf n = user.map User.id
  running : (∃ r, s.request i = some r ∧ r.user.map User.id = user.map User.id ∧
      r.accepted = true ∧ n ∈ r.recorded) ∨
    s.request i = none ∧ i < s.requests.length ∧ n ∈ s.containers

section Kept

variable {s s' : Platform} {i j : ℕ} {user : Option User} {n : Text} {r : Req} {o : Option Req}

lemma kept_of_record (h : Records s i user n) (hstep : step s (.record i) = some s') :
    Kept i user n s' := by
  obtain ⟨r, listing, batch, rest, hr, hl, hb, rfl, hn⟩ := h
  obtain ⟨r', listing', batch', rest', hr', hl', hb', hacc, -, rfl⟩ := step_record hstep
  obtain rfl : r = r' := Option.some.inj (hr.symm.trans hr')
  obtain rfl : listing = listing' := Option.some.inj (hl.symm.trans hl')
  obtain ⟨rfl, rfl⟩ := Prod.mk.inj (Option.some.inj (hb.symm.trans hb'))
  exact ⟨userOf_record_of_mem hn, .inl ⟨r.recordBatch batch listing rest,
    request_setReq_self hr _, rfl, hacc, List.mem_append_right _ hn⟩⟩

/-- A step of another request, or one that leaves what the request has recorded. -/
lemma Kept.setReq (h : Kept i user n s) (hr : s.request j = some r)
    (hreq : s'.requests = (s.setReq j o).requests)
    (hself : j = i → ∃ r', o = some r' ∧ r'.user = r.user ∧ r'.accepted = r.accepted ∧
      (n ∈ r.recorded → n ∈ r'.recorded))
    (hcontainers : n ∈ s.containers → n ∈ s'.containers)
    (howner : s'.owners.userOf n = user.map User.id) : Kept i user n s' := by
  have hrequest : s'.request i = (s.setReq j o).request i := by
    rw [Platform.request, hreq, Platform.request]
  have hlength : s'.requests.length = s.requests.length := by
    rw [hreq, Platform.setReq, List.length_set]
  refine ⟨howner, ?_⟩
  by_cases hij : i = j
  · subst hij
    obtain ⟨r', rfl, huser, hacc, hrec⟩ := hself rfl
    rw [hrequest, request_setReq_self hr]
    rcases h.running with ⟨r₁, hr₁, huser₁, hacc₁, hn⟩ | ⟨hnone, -, -⟩
    · obtain rfl : r = r₁ := Option.some.inj (hr.symm.trans hr₁)
      exact .inl ⟨r', rfl, huser ▸ huser₁, hacc.trans hacc₁, hrec hn⟩
    · exact absurd (hr.symm.trans hnone) (by simp)
  · rw [hrequest, request_setReq_of_ne hij, hlength]
    rcases h.running with hrun | ⟨hnone, hlt, hn⟩
    · exact .inl hrun
    · exact .inr ⟨hnone, hlt, hcontainers hn⟩

/-- What is released leaves the other names of the requests. -/
lemma Kept.release (h : Kept i user n s) {names : List Text} (hn : n ∉ names)
    (hreq : s'.requests = (s.release names).requests)
    (hcontainers : n ∈ s.containers → n ∈ s'.containers)
    (howner : s'.owners.userOf n = user.map User.id) : Kept i user n s' := by
  have hrequest : s'.request i = (s.request i).map (Req.release names) := by
    rw [← request_release, Platform.request, hreq, Platform.request]
  refine ⟨howner, ?_⟩
  rw [hrequest]
  rcases h.running with ⟨r, hr, huser, hacc, hrec⟩ | ⟨hnone, hlt, hc⟩
  · exact .inl ⟨r.release names, by rw [hr, Option.map_some], huser, hacc, by
      simp [Req.release, hrec, hn]⟩
  · refine .inr ⟨by rw [hnone, Option.map_none], ?_, hcontainers hc⟩
    rwa [hreq, Platform.release, List.length_map]

lemma Kept.submit (h : Kept i user n s) (work : Work) (w : Option User) :
    Kept i user n { s with requests := s.requests ++ [some (newReq w work)] } := by
  have hlt : i < s.requests.length := by
    rcases h.running with ⟨r, hr, -⟩ | ⟨-, hlt, -⟩
    · exact lt_of_request hr
    · exact hlt
  refine ⟨h.owner, ?_⟩
  rw [request_append hlt, List.length_append]
  exact h.running.imp_right fun ⟨hnone, hlt, hn⟩ => ⟨hnone, Nat.lt_add_right _ hlt, hn⟩

end Kept

/-! ## Steps -/

/-- A step that changes the owner of a name is one of this user's requests recording it. -/
def OwnerStays (user : Option User) (n : Text) (s s' : Platform) (a : Action) : Prop :=
  s'.owners n = s.owners n ∨
    ∃ j r, a = .record j ∧ s.request j = some r ∧ r.user.map User.id = user.map User.id

/-- **A name stays its user's** over a step that records no other user's names and does not
release it, and its owner is changed by requests of this user only. -/
lemma Kept.step {s s' : Platform} {a : Action} {i : ℕ} {user : Option User} {n : Text}
    (h : Kept i user n s) (hunclaimed : Unclaimed s a) (hkeep : ¬ Releases i n s a)
    (hstep : step s a = some s') : Kept i user n s' ∧ OwnerStays user n s s' a := by
  cases a with
  | deploy w base count =>
    obtain rfl := Option.some.inj hstep
    exact ⟨h.submit _ w, .inl rfl⟩
  | benchmark w base phases =>
    obtain rfl := Option.some.inj hstep
    exact ⟨h.submit _ w, .inl rfl⟩
  | list j =>
    obtain ⟨r, hr, -, rfl⟩ := step_list hstep
    exact ⟨h.setReq hr rfl (fun _ => ⟨_, rfl, rfl, rfl, id⟩) id h.owner, .inl rfl⟩
  | check j =>
    obtain ⟨r, listing, hr, -, hacc, hcases⟩ := step_check hstep
    -- a request that has recorded names has been accepted before
    have hne : j ≠ i := by
      rintro rfl
      rcases h.running with ⟨r₁, hr₁, -, hacc₁, -⟩ | ⟨hnone, -, -⟩
      · obtain rfl : r = r₁ := Option.some.inj (hr.symm.trans hr₁)
        exact absurd (hacc.symm.trans hacc₁) (by simp)
      · exact absurd (hr.symm.trans hnone) (by simp)
    rcases hcases with ⟨-, rfl⟩ | ⟨-, rfl⟩
    · exact ⟨h.setReq hr rfl (fun hji => absurd hji hne) id h.owner, .inl rfl⟩
    · exact ⟨h.setReq hr rfl (fun hji => absurd hji hne) id h.owner, .inl rfl⟩
  | record j =>
    obtain ⟨r, listing, batch, rest, hr, hl, hb, hacc, -, rfl⟩ := step_record hstep
    by_cases hfresh : n ∈ freshNames batch listing
    · have hsame : r.user.map User.id = user.map User.id := by
        obtain ⟨hcontainer, hrunning⟩ :=
          hunclaimed r.user n ⟨r, listing, batch, rest, hr, hl, hb, rfl, hfresh⟩
        rcases h.running with ⟨r₁, hr₁, huser₁, -, hn⟩ | ⟨-, -, hn⟩
        · exact (hrunning i r₁ hr₁ hn).symm.trans huser₁
        · exact (hcontainer hn).symm.trans h.owner
      exact ⟨h.setReq hr rfl (fun _ => ⟨_, rfl, rfl, rfl, List.mem_append_left _⟩) id
        ((userOf_record_of_mem hfresh).trans hsame), .inr ⟨j, r, rfl, hr, hsame⟩⟩
    · have howner : record s.owners (freshNames batch listing) r.user n = s.owners n :=
        record_of_notMem hfresh
      exact ⟨h.setReq hr rfl (fun _ => ⟨_, rfl, rfl, rfl, List.mem_append_left _⟩) id
        ((Owners.userOf_congr howner).trans h.owner), .inl howner⟩
  | create j m =>
    obtain ⟨r, hr, -, -, rfl⟩ := step_create hstep
    exact ⟨h.setReq hr rfl (fun _ => ⟨_, rfl, rfl, rfl, id⟩) (List.mem_cons_of_mem m) h.owner,
      .inl rfl⟩
  | fail j m =>
    obtain ⟨r, hr, -, rfl⟩ := step_fail hstep
    exact ⟨h.setReq hr rfl (fun _ => ⟨_, rfl, rfl, rfl, id⟩) id h.owner, .inl rfl⟩
  | finish j =>
    obtain ⟨r, hr, rfl⟩ := step_finish hstep
    refine ⟨?_, .inl rfl⟩
    by_cases hji : j = i
    · -- the request ends with the container there
      subst hji
      have hn : n ∈ s.containers := by
        by_contra hn
        exact hkeep ⟨rfl, hn⟩
      refine ⟨h.owner, .inr ⟨request_setReq_self hr none, ?_, hn⟩⟩
      rw [Platform.setReq, List.length_set]
      exact lt_of_request hr
    · exact h.setReq hr rfl (fun he => absurd he hji) id h.owner
  | delete m =>
    obtain ⟨-, rfl⟩ := step_delete hstep
    have hmn : n ≠ m := fun he => hkeep he.symm
    have howner : forget s.owners [m] n = s.owners n := by simp [forget, hmn]
    exact ⟨h.release (by simpa using hmn) rfl (fun hn => by simpa [hmn] using hn)
      ((Owners.userOf_congr howner).trans h.owner), .inl howner⟩
  | destroy m =>
    obtain ⟨-, rfl⟩ := step_destroy hstep
    refine ⟨⟨h.owner, ?_⟩, .inl rfl⟩
    rcases h.running with hrun | ⟨hnone, hlt, hn⟩
    · exact .inl hrun
    · have hmn : n ≠ m := fun he => hkeep ⟨he.symm, hnone⟩
      exact .inr ⟨hnone, hlt, by simpa [hmn] using hn⟩
  | assign names team =>
    obtain rfl := Option.some.inj hstep
    have hn : n ∉ names := hkeep
    have howner : assign s.owners names team n = s.owners n := by simp [assign, hn]
    exact ⟨h.release hn rfl id ((Owners.userOf_congr howner).trans h.owner), .inl howner⟩
  | configure site =>
    obtain rfl := Option.some.inj hstep
    exact ⟨⟨h.owner, h.running⟩, .inl rfl⟩

/-- **Once a request of a user has recorded a name, no other user's request changes its owner**
until the name is released, in every run that records no name while it is another user's. -/
theorem owner_kept {s₀ s₁ s₂ s₃ : Platform} {i : ℕ} {user : Option User} {n : Text}
    {as : List Action} {a : Action} (hrecords : Records s₀ i user n)
    (hrecord : step s₀ (.record i) = some s₁)
    (hrun : Run step (fun s a => Unclaimed s a ∧ ¬ Releases i n s a) s₁ as s₂)
    (hunclaimed : Unclaimed s₂ a) (hkeep : ¬ Releases i n s₂ a) (hstep : step s₂ a = some s₃)
    (hother : ∀ j r, a = .record j → s₂.request j = some r →
      r.user.map User.id ≠ user.map User.id) : s₃.owners n = s₂.owners n := by
  have hkept : Kept i user n s₂ :=
    hrun.invariant (P := Kept i user n) (fun h hg hs => (h.step hg.1 hg.2 hs).1)
      (kept_of_record hrecords hrecord)
  rcases (hkept.step hunclaimed hkeep hstep).2 with hsame | ⟨j, r, ha, hr, huser⟩
  · exact hsame
  · exact absurd huser (hother j r ha hr)

/-! ## Two requests for one name -/

/-- A second user, without limits. -/
def second : User := { single with id := 2, username := "second".toList }

/-- Two users deploy one container each, under these base names; the first has been checked. -/
def bothArrive (base base' : Text) : List Action :=
  [.deploy (some single) base 1, .deploy (some second) base' 1, .list 0, .check 0]

/-- The second request lists the containers and is checked. -/
def secondChecked : List Action := [.list 1, .check 1]

/-- Whether a step changes neither containers nor owners. -/
def Action.reads : Action → Bool
  | .list _ | .check _ => true
  | _ => false

lemma safe_of_reads {i : ℕ} {n : Text} {s : Platform} {a : Action} (h : a.reads = true) :
    Unclaimed s a ∧ ¬ Releases i n s a := by
  cases a with
  | list j | check j => exact ⟨trivial, id⟩
  | _ => exact absurd h (by simp [Action.reads])

/-- The state after some actions. -/
def stateAfter (as : List Action) : Platform := (exec step oneEach as).getD oneEach

/-- The runs of two users with different base names, up to the second user's record. -/
def recorded : Platform := stateAfter (bothArrive "a".toList "b".toList ++ [.record 0])

def bothChecked : Platform :=
  stateAfter (bothArrive "a".toList "b".toList ++ [.record 0] ++ secondChecked)

def bothRecorded : Platform :=
  stateAfter (bothArrive "a".toList "b".toList ++ [.record 0] ++ secondChecked ++ [.record 1])

/-- With different base names the first user's name stays theirs. -/
theorem owner_kept_two :
    bothChecked.owners.userOf "a-0001".toList = some 1 ∧
      bothRecorded.owners "a-0001".toList = bothChecked.owners "a-0001".toList := by
  refine ⟨by decide +kernel,
    @owner_kept (stateAfter (bothArrive "a".toList "b".toList)) recorded _ _ 0 (some single)
      "a-0001".toList secondChecked (.record 1) ?_ rfl
      (run_of_execMeets (g := fun _ a => a.reads) (fun _ _ => safe_of_reads) rfl
        (by decide +kernel)) ?_ id rfl ?_⟩
  · exact ⟨_, _, _, _, rfl, rfl, rfl, rfl, by decide +kernel⟩
  · -- the second request records a name that nobody has
    rintro user n ⟨r, listing, batch, rest, hr, hl, hb, -, hn⟩
    obtain rfl := Option.some.inj hr
    obtain rfl := Option.some.inj hl
    obtain ⟨rfl, -⟩ := Prod.mk.inj (Option.some.inj hb)
    have hname : n = "b-0001".toList := List.mem_singleton.mp (List.mem_of_mem_filter hn)
    subst hname
    refine ⟨fun hc => absurd hc (List.not_mem_nil), fun k r hk hrec => ?_⟩
    match k, hk with
    | 0, hk =>
      obtain rfl := Option.some.inj hk
      exact absurd hrec (by decide +kernel)
    | 1, hk =>
      obtain rfl := Option.some.inj hk
      exact absurd hrec (by decide +kernel)
  · rintro j r ⟨⟩ hr
    obtain rfl := Option.some.inj hr
    decide

/-- With the same base name the second request finds no container of that name, and records it
as its own user's while the first user's request runs. -/
theorem second_takes_over : ∃ s₁ s₂ s₃,
    Run step anyStep oneEach (bothArrive "a".toList "a".toList ++ [.record 0]) s₁ ∧
      s₁.owners.userOf "a-0001".toList = some 1 ∧
      Run step anyStep s₁ secondChecked s₂ ∧ step s₂ (.record 1) = some s₃ ∧
      (s₃.request 0).map Req.held = some ["a-0001".toList] ∧
      s₃.owners.userOf "a-0001".toList = some 2 :=
  ⟨_, _, _, run_of_exec rfl, by decide +kernel, run_of_exec rfl, rfl, by decide +kernel,
    by decide +kernel⟩

end Habeny.Tenancy
