import Habeny.Tenancy.Commitment

/-!
# Limits on containers, over whole runs

The check of a request compares the containers that exist with the limits, and not what other
requests have been promised meanwhile.  The limits hold throughout a run in which every request
that is accepted fits beside these commitments (`Covered`).  They do where requests come one
after the other, and two requests at once are enough to pass them.
-/

namespace Habeny.Tenancy

open Habeny.Lib Habeny.Auth Habeny.Deploy

/-- The limits of the users and of the teams hold for the containers that exist. -/
structure WithinLimits (limits : Limits) (s : Platform) : Prop where
  user : ∀ u limit, (limits.user u).bind UserLimit.maxContainers = some limit →
    ownedBy s.owners u s.containers ≤ limit
  team : ∀ t limit, (limits.team t).bind Team.maxContainers = some limit →
    ofTeam s.owners t s.containers ≤ limit

/-- The limits also have room for what running requests may still create and record. -/
structure Covered (limits : Limits) (s : Platform) : Prop where
  user : ∀ u limit, (limits.user u).bind UserLimit.maxContainers = some limit →
    committed (userTally u) s ≤ limit
  team : ∀ t limit, (limits.team t).bind Team.maxContainers = some limit →
    committed (teamTally t) s ≤ limit

lemma Covered.withinLimits {limits : Limits} {s : Platform} (h : Covered limits s) :
    WithinLimits limits s where
  user u limit hl := by
    rw [ownedBy_eq_counted]
    exact (counted_le_committed _ s).trans (h.user u limit hl)
  team t limit hl := by
    rw [ofTeam_eq_counted]
    exact (counted_le_committed _ s).trans (h.team t limit hl)

/-- Where no request runs, the commitments are the containers. -/
lemma committed_of_no_requests {s : Platform} (h : s.requests = []) (T : Tally) :
    committed T s = counted T s := by
  simp [committed, counted, Platform.live, Platform.promised, h]

lemma WithinLimits.covered {limits : Limits} {s : Platform} (h : WithinLimits limits s)
    (hs : s.requests = []) : Covered limits s where
  user u limit hl := by
    rw [committed_of_no_requests hs, ← ownedBy_eq_counted]
    exact h.user u limit hl
  team t limit hl := by
    rw [committed_of_no_requests hs, ← ofTeam_eq_counted]
    exact h.team t limit hl

lemma Covered.mono {limits : Limits} {s s' : Platform} (h : Covered limits s)
    (hle : ∀ T, committed T s' ≤ committed T s) : Covered limits s' where
  user u limit hl := (hle _).trans (h.user u limit hl)
  team t limit hl := (hle _).trans (h.team t limit hl)

/-- A step at which the limits are safe: a request is accepted only if the limits cover what
exists, what running requests may still create, and what it asks for.  Limits, teams and
assignments do not change. -/
def QuotaSafe (s : Platform) : Action → Prop
  | .check i => ∀ r listing, s.request i = some r → r.snapshot = some listing →
      checkRequest s.site s.owners r.user r.work listing = .ok () →
        Covered s.site.limits (s.setReq i (some r.accept))
  | .assign _ _ | .configure _ => False
  | _ => True

/-- **One safe step keeps the limits covered.** -/
lemma covered_step {s s' : Platform} {a : Action} (h : Covered s.site.limits s)
    (hsafe : QuotaSafe s a) (hstep : step s a = some s') :
    s'.site = s.site ∧ Covered s.site.limits s' := by
  rcases step_commitments hstep with ⟨i, r, listing, rfl, hr, hlisting, hok, rfl⟩ |
    ⟨names, team, rfl, -⟩ | ⟨site, rfl, -⟩ | ⟨hsite, hle⟩
  · exact ⟨rfl, hsafe r listing hr hlisting hok⟩
  · exact absurd hsafe id
  · exact absurd hsafe id
  · exact ⟨hsite, h.mono hle⟩

/-! ## One request at a time -/

/-- No other request has been accepted and still runs. -/
def Alone (s : Platform) (i : ℕ) : Prop :=
  ∀ j r, s.request j = some r → j ≠ i → r.accepted = false ∧ r.held = []

lemma request_of_mem {s : Platform} {r : Req} (h : some r ∈ s.requests) :
    ∃ j, s.request j = some r := by
  obtain ⟨j, hj⟩ := List.getElem?_of_mem h
  exact ⟨j, by rw [Platform.request, hj, Option.join_some]⟩

lemma live_of_waiting {r : Req} (h : r.accepted = false ∧ r.held = []) : r.live = [] := by
  simp [Req.live, h]

/-- Accepting a request that runs alone commits to no more than it asks for. -/
lemma committed_accept_alone {s : Platform} {i : ℕ} {r : Req} (hr : s.request i = some r)
    (hwaiting : r.accepted = false ∧ r.held = []) (hfresh : r.snapshot = some s.containers)
    (halone : Alone s i) (T : Tally) :
    committed T (s.setReq i (some r.accept))
      ≤ counted T s + if T.mine r.user then r.work.asked s.containers else 0 := by
  have hothers : ∀ r', some r' ∈ s.requests → r'.accepted = false ∧ r'.held = [] := by
    intro r' hr'
    obtain ⟨j, hj⟩ := request_of_mem hr'
    by_cases hji : j = i
    · subst hji
      obtain rfl : r = r' := Option.some.inj (hr.symm.trans hj)
      exact hwaiting
    · exact halone j r' hj hji
  have hlive : ∀ n ∈ (s.setReq i (some r.accept)).live, n ∈ s.containers := by
    intro n hn
    rcases mem_live.mp hn with hc | ⟨r', hr', hn'⟩
    · exact hc
    · rcases mem_setReq hr' with ho | hold
      · obtain rfl := Option.some.inj ho
        cases hwork : r.work with
        | checked names =>
          have hlisted : n ∈ names ∧ n ∈ s.containers := by
            simpa [Req.live, Req.accept, Req.skipped, hwork, Work.relists, Work.next, hfresh,
              hwaiting.2] using hn'
          exact hlisted.2
        | phases batches =>
          simp [Req.live, Req.accept, Req.skipped, hwork, Work.relists, hwaiting.2] at hn'
      · simp [live_of_waiting (hothers r' hold)] at hn'
  have hpromised : (s.setReq i (some r.accept)).promised T
      = if T.mine r.user then r.work.asked s.containers else 0 := by
    have hzero : s.promised T = 0 := by
      refine List.sum_eq_zero fun k hk => ?_
      obtain ⟨o, ho, rfl⟩ := List.mem_map.mp hk
      cases o with
      | none => rfl
      | some r' => simp [Req.promised, (hothers r' ho).1]
    have hset := promised_setReq (T := T) hr (some r.accept)
    rw [hzero, Nat.zero_add, Req.promised, hwaiting.1, Bool.false_and] at hset
    refine hset.trans ?_
    cases hwork : r.work with
    | checked names =>
      simp [Req.promised, Req.accept, hwork, Work.relists, hfresh]
    | phases batches =>
      simp [Req.promised, Req.accept, hwork, Work.asked]
  rw [committed, hpromised]
  refine Nat.add_le_add_right (Finset.card_le_card fun n hn => ?_) _
  rw [Finset.mem_filter, List.mem_toFinset] at hn ⊢
  exact ⟨hlive n hn.1, hn.2⟩

/-- The checks of a request include those of the limits. -/
lemma checkQuota_of_checkRequest {site : Site} {owners : Owners} {user : Option User}
    {work : Work} {listing : List Text}
    (h : checkRequest site owners user work listing = .ok ()) :
    checkQuota site.limits owners user (work.asked listing) listing = .ok () := by
  cases work with
  | checked names =>
    simp only [checkRequest, bind, Except.bind] at h
    split at h
    · exact absurd h (by simp)
    · exact h
  | phases batches =>
    simp only [checkRequest, bind, Except.bind] at h
    split at h
    · exact absurd h (by simp)
    · exact h

/-- **One request at a time, the checks are enough:** a request that passes them with a current
listing is covered. -/
theorem covered_of_alone {s : Platform} {i : ℕ} {r : Req} (hr : s.request i = some r)
    (hwaiting : r.accepted = false ∧ r.held = []) (hfresh : r.snapshot = some s.containers)
    (halone : Alone s i) (hwithin : WithinLimits s.site.limits s)
    (hknown : ∀ u, r.user = some u → (s.site.limits.user u.id).bind UserLimit.teamId = u.teamId)
    (hok : checkRequest s.site s.owners r.user r.work s.containers = .ok ()) :
    Covered s.site.limits (s.setReq i (some r.accept)) := by
  have hquota := checkQuota_of_checkRequest hok
  constructor
  · intro u limit hl
    refine (committed_accept_alone hr hwaiting hfresh halone _).trans ?_
    rw [← ownedBy_eq_counted]
    by_cases hzero : r.work.asked s.containers = 0
    · simpa [hzero] using hwithin.user u limit hl
    · by_cases hmine : (userTally u).mine r.user = true
      · obtain ⟨w, huser, rfl⟩ : ∃ w, r.user = some w ∧ w.id = u := by
          simpa [userTally] using hmine
        rw [huser] at hquota
        rw [if_pos hmine]
        exact checkUserQuota_ok hl (checkQuota_ok hzero hquota).1
      · simpa [hmine] using hwithin.user u limit hl
  · intro t limit hl
    refine (committed_accept_alone hr hwaiting hfresh halone _).trans ?_
    rw [← ofTeam_eq_counted]
    by_cases hzero : r.work.asked s.containers = 0
    · simpa [hzero] using hwithin.team t limit hl
    · by_cases hmine : (teamTally t).mine r.user = true
      · obtain ⟨w, huser, hteam⟩ : ∃ w, r.user = some w ∧ w.teamId = some t := by
          simpa [teamTally, teamOf, Option.bind_eq_some_iff] using hmine
        rw [huser] at hquota
        rw [if_pos hmine]
        exact checkTeamQuota_ok ((hknown w huser).trans hteam) hl (checkQuota_ok hzero hquota).2
      · simpa [hmine] using hwithin.team t limit hl

/-! ## Whole runs -/

/-- **The limits of users and teams hold in every state of a run** that begins within them and
in which every accepted request fits beside what running requests are committed to. -/
theorem limits_hold {s₀ s : Platform} {as : List Action} (hstart : s₀.requests = [])
    (hwithin : WithinLimits s₀.site.limits s₀) (hrun : Run step QuotaSafe s₀ as s) :
    WithinLimits s₀.site.limits s := by
  have hinv : s.site = s₀.site ∧ Covered s₀.site.limits s := by
    refine hrun.invariant (P := fun s => s.site = s₀.site ∧ Covered s₀.site.limits s) ?_
      ⟨rfl, hwithin.covered hstart⟩
    rintro s s' a ⟨hsite, hcovered⟩ hsafe hstep
    rw [← hsite] at hcovered ⊢
    exact covered_step hcovered hsafe hstep
  exact hinv.2.withinLimits

/-! ## Two requests at once -/

/-- A user without a team who may have one container. -/
def single : User :=
  { id := 1, username := "operator".toList, role := .operator, isAdmin := false, teamId := none,
    auth := .session }

/-- A server without licensing and without containers, and no request yet. -/
def oneEach : Platform :=
  { site := ⟨⟨false, [], none, none, 0⟩, ⟨fun u => if u = 1 then some ⟨none, some 1⟩ else none,
      fun _ => none⟩⟩,
    containers := [], owners := fun _ => none, requests := [] }

lemma oneEach_within : WithinLimits oneEach.site.limits oneEach where
  user _ _ _ := Nat.zero_le _
  team _ _ _ := Nat.zero_le _

/-- One deployment of one container, from its arrival to the creation. -/
def deployOne : List Action :=
  [.deploy (some single) "a".toList 1, .list 0, .check 0, .record 0, .create 0 "a-0001".toList]

theorem limits_hold_deployOne :
    ∃ s, exec step oneEach deployOne = some s ∧ s.containers = ["a-0001".toList] ∧
      WithinLimits oneEach.site.limits s := by
  refine ⟨_, rfl, rfl, @limits_hold oneEach _ deployOne rfl oneEach_within ?_⟩
  refine .cons trivial rfl (.cons trivial rfl (.cons ?_ rfl (.cons trivial rfl
    (.cons trivial rfl (.nil _)))))
  -- the one check of the run: no other request is there
  intro r listing hr hlisting hok
  obtain rfl := Option.some.inj hr
  obtain rfl := Option.some.inj hlisting
  refine covered_of_alone rfl ⟨rfl, rfl⟩ rfl ?_
    ⟨oneEach_within.user, oneEach_within.team⟩ ?_ hok
  · intro j r' hj hne
    cases j with
    | zero => exact absurd rfl hne
    | succ j => exact absurd hj (by simp [Platform.request, Platform.setReq, oneEach])
  · rintro u ⟨⟩
    rfl

/-- Two deployments of the user; the second is checked before the first has created its
container. -/
def deployTwo : List Action :=
  [.deploy (some single) "a".toList 1, .deploy (some single) "b".toList 1,
    .list 0, .check 0, .record 0, .list 1, .check 1, .record 1,
    .create 0 "a-0001".toList, .create 1 "b-0001".toList]

/-- Both are accepted, and the user has two containers. -/
theorem limits_passed_by_two : ∃ s, Run step anyStep oneEach deployTwo s ∧
    oneEach.requests = [] ∧ WithinLimits oneEach.site.limits oneEach ∧
    (s.site.limits.user 1).bind UserLimit.maxContainers = some 1 ∧
    ownedBy s.owners 1 s.containers = 2 :=
  ⟨_, run_of_exec rfl, rfl, oneEach_within, rfl, by decide +kernel⟩

end Habeny.Tenancy
