import Habeny.Tenancy.Quota

/-!
# The licence's limit on containers, over whole runs

A deployment is checked against the limit with the containers that exist, and a benchmark is
not checked against it at all.  The limit holds throughout a run in which every request that is
accepted fits beside what exists and what running requests may still create.
-/

namespace Habeny.Licensing

open Habeny.Lib Habeny.Auth Habeny.Tenancy

/-- The licence's limit on containers. -/
def cap (s : Platform) : Option ℕ := (statusInfo s.site.license).maxContainers

/-- The number of containers that exist. -/
def total (s : Platform) : ℕ := s.containers.dedup.length

lemma total_eq_counted (s : Platform) : total s = counted allTally s := by
  rw [total, ← List.countP_true]
  exact (card_filter_toFinset s.containers fun _ => true).symm

/-- A step at which the licence's limit is safe: a request is accepted only if the limit covers
what exists, what running requests may still create, and what it asks for.  The licence stays. -/
def CapSafe (s : Platform) : Action → Prop
  | .check i => ∀ r listing limit, s.request i = some r → r.snapshot = some listing →
      checkRequest s.site s.owners r.user r.work listing = .ok () → cap s = some limit →
        committed allTally (s.setReq i (some r.accept)) ≤ limit
  | .configure site => site.license = s.site.license
  | _ => True

/-- One safe step keeps the commitments within the limit. -/
lemma cap_step {s s' : Platform} {a : Action} {limit : ℕ} (hcap : cap s = some limit)
    (h : committed allTally s ≤ limit) (hsafe : CapSafe s a) (hstep : step s a = some s') :
    s'.site.license = s.site.license ∧ committed allTally s' ≤ limit := by
  rcases step_commitments hstep with ⟨i, r, listing, rfl, hr, hlisting, hok, rfl⟩ |
    ⟨names, team, rfl, rfl⟩ | ⟨site, rfl, rfl⟩ | ⟨hsite, hle⟩
  · exact ⟨rfl, hsafe r listing limit hr hlisting hok hcap⟩
  · exact ⟨rfl, (committed_release allTally s names).le.trans h⟩
  · exact ⟨hsafe, h⟩
  · exact ⟨by rw [hsite], (hle allTally).trans h⟩

/-- A deployment that is accepted alone, with a current listing, is within the limit. -/
theorem cap_of_alone {s : Platform} {i : ℕ} {r : Req} {limit : ℕ} {names : List Text}
    (hr : s.request i = some r) (hwork : r.work = .checked names)
    (hwaiting : r.accepted = false ∧ r.held = []) (hfresh : r.snapshot = some s.containers)
    (halone : Alone s i) (hcap : cap s = some limit) (hwithin : total s ≤ limit)
    (hok : checkRequest s.site s.owners r.user r.work s.containers = .ok ()) :
    committed allTally (s.setReq i (some r.accept)) ≤ limit := by
  have hmine : allTally.mine r.user = true := rfl
  refine (committed_accept_alone hr hwaiting hfresh halone allTally).trans ?_
  rw [← total_eq_counted, if_pos hmine]
  rcases Nat.eq_zero_or_pos (r.work.asked s.containers) with hzero | hpos
  · rwa [hzero, Nat.add_zero]
  · have hrequire : require s.site.license (r.work.asked s.containers) s.containers.dedup.length
        = .ok () := by
      rw [hwork] at hok ⊢
      simp only [checkRequest, bind, Except.bind] at hok
      split at hok
      · exact absurd hok (by simp)
      · assumption
    exact require_ok hcap hpos hrequire

/-- **The number of containers never passes the licence's limit** in a run that begins within
it and in which every accepted request fits beside what running requests are committed to. -/
theorem cap_holds {s₀ s : Platform} {as : List Action} {limit : ℕ} (hstart : s₀.requests = [])
    (hcap : cap s₀ = some limit) (hwithin : total s₀ ≤ limit)
    (hrun : Run step CapSafe s₀ as s) : total s ≤ limit := by
  have hinv : s.site.license = s₀.site.license ∧ committed allTally s ≤ limit := by
    refine hrun.invariant
      (P := fun s => s.site.license = s₀.site.license ∧ committed allTally s ≤ limit) ?_ ⟨rfl, ?_⟩
    · rintro s s' a ⟨hsite, hle⟩ hsafe hstep
      have hcap' : cap s = some limit := by rw [cap, hsite]; exact hcap
      obtain ⟨hsite', hle'⟩ := cap_step hcap' hle hsafe hstep
      exact ⟨hsite'.trans hsite, hle'⟩
    · rwa [committed_of_no_requests hstart, ← total_eq_counted]
  rw [total_eq_counted]
  exact (counted_le_committed allTally s).trans hinv.2

/-! ## A licence for one container -/

/-- A server with a licence for one container, and no container yet. -/
def licensedForOne : Platform :=
  { site :=
      { license := ⟨true, "S".toList, some (.ok ⟨"customer".toList, "S".toList, none, some 1,
          by simp⟩), none, 0⟩,
        limits := ⟨fun _ => none, fun _ => none⟩ },
    containers := [], owners := fun _ => none, requests := [] }

theorem cap_holds_deployOne : ∃ s, exec step licensedForOne deployOne = some s ∧
    s.containers = ["a-0001".toList] ∧ total s ≤ 1 := by
  refine ⟨_, rfl, rfl, @cap_holds licensedForOne _ deployOne 1 rfl rfl (Nat.zero_le 1) ?_⟩
  refine .cons trivial rfl (.cons trivial rfl (.cons ?_ rfl (.cons trivial rfl
    (.cons trivial rfl (.nil _)))))
  -- the one check of the run: no other request is there
  intro r listing limit hr hlisting hok hcap
  obtain rfl := Option.some.inj hr
  obtain rfl := Option.some.inj hlisting
  refine cap_of_alone rfl rfl ⟨rfl, rfl⟩ rfl ?_ hcap (Nat.zero_le limit) hok
  intro j r' hj hne
  cases j with
  | zero => exact absurd rfl hne
  | succ j => exact absurd hj (by simp [Platform.request, Platform.setReq, licensedForOne])

/-- A benchmark with one phase of two containers. -/
def benchmarkTwo : List Action :=
  [.benchmark (some single) "bm".toList [2], .list 0, .check 0, .list 0, .record 0,
    .create 0 "bm-p0-0001".toList, .create 0 "bm-p0-0002".toList]

/-- It is accepted, and the server has two containers. -/
theorem benchmark_passes_cap : ∃ s, Run step anyStep licensedForOne benchmarkTwo s ∧
    cap s = some 1 ∧ total licensedForOne = 0 ∧ total s = 2 :=
  ⟨_, run_of_exec rfl, rfl, rfl, by decide +kernel⟩

end Habeny.Licensing
