import Habeny.Tenancy.Platform
import Mathlib.Algebra.BigOperators.Group.List.Basic
import Mathlib.Data.Finset.Card
import Mathlib.Data.Finset.Dedup

/-!
# What running requests are still committed to

A container that exists counts for its recorded owner, and so does one that a running request
may still create.  Names that an accepted request has yet to record count for the request's
user, as promised by its check.  Together these are the commitments of a user, of a team or of
the server (`committed`).  Accepting a request is the only step that raises them.
-/

namespace Habeny.Tenancy

open Habeny.Lib Habeny.Auth Habeny.Deploy

/-- What to count: the containers of some recorded owners, and the requests of some users.
What a counted request records is not counted otherwise, and a container without a record is
counted only if all are. -/
structure Tally where
  own : Option Owner → Bool
  mine : Option User → Bool
  mine_of_own : ∀ w, own (some ⟨teamOf w, w.map User.id⟩) = true → mine w = true
  own_none : own none = true → ∀ o, own o = true

/-- The containers of a user. -/
def userTally (u : ℕ) : Tally where
  own o := decide (o.bind Owner.ownerId = some u)
  mine w := decide (w.map User.id = some u)
  mine_of_own w h := by simpa using h
  own_none h := by simp at h

/-- The containers of a team. -/
def teamTally (t : ℕ) : Tally where
  own o := decide (o.bind Owner.teamId = some t)
  mine w := decide (teamOf w = some t)
  mine_of_own w h := by simpa using h
  own_none h := by simp at h

/-- All containers. -/
def allTally : Tally where
  own _ := true
  mine _ := true
  mine_of_own _ _ := rfl
  own_none _ _ := rfl

/-! ## Commitments -/

/-- The names that an accepted request leaves to others when it records: its listing has
them. -/
def Req.skipped (r : Req) : List Text :=
  match r.snapshot, r.work.next with
  | some listing, some (batch, _) => batch.filter fun n => decide (n ∈ listing)
  | _, _ => []

/-- The names that the workers of a request may create without recording them first. -/
def Req.live (r : Req) : List Text := r.held ++ if r.accepted then r.skipped else []

/-- How many names an accepted request may still record. -/
def Req.promised (T : Tally) (r : Req) : ℕ :=
  if r.accepted && T.mine r.user then r.work.asked (r.snapshot.getD []) else 0

/-- The names that are containers or may become containers as they are recorded. -/
def Platform.live (s : Platform) : List Text :=
  s.containers ++ s.requests.flatMap fun o => o.elim [] Req.live

/-- How many names the running requests may still record. -/
def Platform.promised (T : Tally) (s : Platform) : ℕ :=
  (s.requests.map fun o => o.elim 0 (Req.promised T)).sum

/-- How many containers there can be without another request being accepted. -/
def committed (T : Tally) (s : Platform) : ℕ :=
  (s.live.toFinset.filter fun n => T.own (s.owners n) = true).card + s.promised T

/-- How many containers there are. -/
def counted (T : Tally) (s : Platform) : ℕ :=
  (s.containers.toFinset.filter fun n => T.own (s.owners n) = true).card

lemma counted_le_committed (T : Tally) (s : Platform) : counted T s ≤ committed T s := by
  refine Nat.le_add_right_of_le (Finset.card_le_card fun n hn => ?_)
  rw [Finset.mem_filter, List.mem_toFinset] at hn ⊢
  exact ⟨List.mem_append_left _ hn.1, hn.2⟩

/-- The count in the terms of the quota check. -/
lemma card_filter_toFinset (names : List Text) (p : Text → Bool) :
    (names.toFinset.filter fun n => p n = true).card = names.dedup.countP p := by
  rw [List.countP_eq_length_filter,
    ← List.toFinset_card_of_nodup ((List.nodup_dedup names).filter p)]
  congr 1
  ext n
  simp

lemma ownedBy_eq_counted (s : Platform) (u : ℕ) :
    ownedBy s.owners u s.containers = counted (userTally u) s :=
  (card_filter_toFinset s.containers _).symm

lemma ofTeam_eq_counted (s : Platform) (t : ℕ) :
    ofTeam s.owners t s.containers = counted (teamTally t) s :=
  (card_filter_toFinset s.containers _).symm

/-! ## Steps that keep commitments -/

lemma mem_live {s : Platform} {n : Text} :
    n ∈ s.live ↔ n ∈ s.containers ∨ ∃ r, some r ∈ s.requests ∧ n ∈ r.live := by
  simp only [Platform.live, List.mem_append, List.mem_flatMap]
  refine or_congr_right ⟨?_, ?_⟩
  · rintro ⟨- | r, hr, hn⟩
    · exact absurd hn (by simp)
    · exact ⟨r, hr, hn⟩
  · rintro ⟨r, hr, hn⟩
    exact ⟨some r, hr, hn⟩

/-- Commitments do not rise if what is newly live is promised no longer. -/
lemma committed_le {T : Tally} {s s' : Platform} (new : List Text)
    (hlive : ∀ n ∈ s'.live, T.own (s'.owners n) = true →
      n ∈ new ∨ n ∈ s.live ∧ T.own (s.owners n) = true)
    (hpromised : s'.promised T + new.length ≤ s.promised T) : committed T s' ≤ committed T s := by
  have hsub : (s'.live.toFinset.filter fun n => T.own (s'.owners n) = true)
      ⊆ new.toFinset ∪ s.live.toFinset.filter fun n => T.own (s.owners n) = true := by
    intro n hn
    rw [Finset.mem_filter, List.mem_toFinset] at hn
    rw [Finset.mem_union, List.mem_toFinset, Finset.mem_filter, List.mem_toFinset]
    exact hlive n hn.1 hn.2
  have hcard := (Finset.card_le_card hsub).trans (Finset.card_union_le _ _)
  have hnew : new.toFinset.card ≤ new.length := List.toFinset_card_le new
  unfold committed
  omega

lemma sum_map_set {α : Type*} (f : α → ℕ) {l : List α} {i : ℕ} {x : α} (h : l[i]? = some x)
    (y : α) : ((l.set i y).map f).sum + f x = (l.map f).sum + f y := by
  induction l generalizing i with
  | nil => simp at h
  | cons z l ih =>
    cases i with
    | zero =>
      rw [List.getElem?_cons_zero, Option.some.injEq] at h
      subst h
      simp only [List.set_cons_zero, List.map_cons, List.sum_cons]
      omega
    | succ i =>
      have := ih (by simpa using h)
      simp only [List.set_cons_succ, List.map_cons, List.sum_cons]
      omega

section SetReq

variable {T : Tally} {s : Platform} {i : ℕ} {r : Req}

lemma promised_setReq (h : s.request i = some r) (o : Option Req) :
    (s.setReq i o).promised T + r.promised T = s.promised T + o.elim 0 (Req.promised T) :=
  sum_map_set (fun o : Option Req => o.elim 0 (Req.promised T)) (getElem?_of_request h) o

lemma mem_live_of_request (h : s.request i = some r) {n : Text} (hn : n ∈ r.live) :
    n ∈ s.live :=
  mem_live.mpr (.inr ⟨r, List.mem_of_getElem? (getElem?_of_request h), hn⟩)

/-- The requests beside one that changes are the same. -/
lemma mem_setReq {o : Option Req} {r' : Req} (h : some r' ∈ (s.setReq i o).requests) :
    o = some r' ∨ some r' ∈ s.requests :=
  (List.mem_or_eq_of_mem_set h).symm.imp_left Eq.symm

end SetReq

/-- A request that changes what it holds or promises, while the containers and owners stay. -/
lemma committed_setReq {T : Tally} {s : Platform} {i : ℕ} {r : Req} {o : Option Req}
    (h : s.request i = some r) (hlive : ∀ r', o = some r' → ∀ n ∈ r'.live, n ∈ s.live)
    (hpromised : o.elim 0 (Req.promised T) ≤ r.promised T) :
    committed T (s.setReq i o) ≤ committed T s := by
  refine committed_le [] (fun n hn hown => .inr ⟨?_, hown⟩) ?_
  · rcases mem_live.mp hn with hc | ⟨r', hr', hn'⟩
    · exact mem_live.mpr (.inl hc)
    · rcases mem_setReq hr' with ho | hold
      · exact hlive r' ho n hn'
      · exact mem_live.mpr (.inr ⟨r', hold, hn'⟩)
  · have := promised_setReq (T := T) h o
    simp only [List.length_nil]
    omega

/-- Fewer containers, other things being equal. -/
lemma committed_removed {T : Tally} {s : Platform} (n : Text) :
    committed T { s with containers := s.containers.filter (· ≠ n) } ≤ committed T s := by
  refine committed_le [] (fun m hm hown => .inr ⟨?_, hown⟩) le_rfl
  rcases mem_live.mp hm with hc | hr
  · exact mem_live.mpr (.inl (List.mem_of_mem_filter hc))
  · exact mem_live.mpr (.inr hr)

@[simp] lemma live_release (names : List Text) (r : Req) : (r.release names).live = r.live := rfl

@[simp] lemma promised_release (T : Tally) (names : List Text) (r : Req) :
    (r.release names).promised T = r.promised T := rfl

lemma Platform.live_release (s : Platform) (names : List Text) : (s.release names).live = s.live := by
  simp only [Platform.live, Platform.release, List.flatMap_map]
  congr 2
  funext o
  cases o <;> rfl

lemma Platform.promised_release (T : Tally) (s : Platform) (names : List Text) :
    (s.release names).promised T = s.promised T := by
  simp only [Platform.promised, Platform.release, List.map_map]
  congr 2
  funext o
  cases o <;> rfl

lemma committed_release (T : Tally) (s : Platform) (names : List Text) :
    committed T (s.release names) = committed T s := by
  rw [committed, committed, Platform.live_release, Platform.promised_release]
  rfl

/-! ## One lemma for each step -/

section Steps

variable {T : Tally} {s s' : Platform} {i : ℕ} {n : Text}

lemma committed_submit (T : Tally) (s : Platform) (user : Option User) (work : Work) :
    committed T { s with requests := s.requests ++ [some (newReq user work)] } = committed T s := by
  have hlive : (newReq user work).live = [] := rfl
  have hpromised : (newReq user work).promised T = 0 := rfl
  simp [committed, Platform.live, Platform.promised, hlive, hpromised]

/-- A listing adds nothing: what it has are containers. -/
lemma committed_list (h : step s (.list i) = some s') : committed T s' ≤ committed T s := by
  obtain ⟨r, hr, hmay, rfl⟩ := step_list h
  rw [Req.mayList, Bool.and_eq_true, List.isEmpty_iff] at hmay
  refine committed_setReq hr ?_ ?_
  · rintro _ ⟨⟩ n hn
    refine mem_live.mpr (.inl ?_)
    rw [Req.live, hmay.1, List.nil_append] at hn
    split at hn
    · unfold Req.skipped at hn
      split at hn
      · rename_i listing batch rest hlisting _
        obtain rfl : s.containers = listing := Option.some.inj hlisting
        simpa using (List.mem_filter.mp hn).2
      · exact absurd hn (by simp)
    · exact absurd hn (by simp)
  · -- only a benchmark lists after its check, and what it promises does not depend on it
    simp only [Option.elim_some, Req.promised]
    cases hacc : r.accepted with
    | false => simp
    | true =>
      have hrelists : r.work.relists = true := by simpa [hacc] using hmay.2
      cases hwork : r.work with
      | checked names => simp [hwork, Work.relists] at hrelists
      | phases batches => exact le_of_eq rfl

/-- A request that is refused commits to nothing. -/
lemma committed_drop {r : Req} (h : s.request i = some r) :
    committed T (s.setReq i none) ≤ committed T s :=
  committed_setReq h (by simp) (Nat.zero_le _)

lemma length_freshNames_le (batch listing : List Text) :
    (freshNames batch listing).length ≤ batch.length := List.length_filter_le _ _

/-- What a request is checked for covers what it records next and what is left. -/
lemma asked_of_next {work rest : Work} {batch listing : List Text}
    (h : work.next = some (batch, rest)) :
    rest.asked [] + (freshNames batch listing).length ≤ work.asked listing := by
  cases work with
  | checked names =>
    obtain ⟨rfl, rfl⟩ := Prod.mk.inj (Option.some.inj h)
    simp [Work.asked, freshNames]
  | phases batches =>
    cases batches with
    | nil => simp [Work.next] at h
    | cons b bs =>
      obtain ⟨rfl, rfl⟩ := Prod.mk.inj (Option.some.inj h)
      have := length_freshNames_le b listing
      simp only [Work.asked, List.map_cons, List.sum_cons]
      omega

/-- **Recording keeps commitments:** the names it records as the user's were promised, and the
others were live already. -/
lemma committed_record (h : step s (.record i) = some s') : committed T s' ≤ committed T s := by
  obtain ⟨r, listing, batch, rest, hr, hlisting, hnext, hacc, hheld, rfl⟩ := step_record h
  have hpromised := promised_setReq (T := T) hr (some (r.recordBatch batch listing rest))
  have hnew : (r.recordBatch batch listing rest).promised T
      + (if T.mine r.user then (freshNames batch listing).length else 0) ≤ r.promised T := by
    have hasked : rest.asked [] + (freshNames batch listing).length ≤ r.work.asked listing :=
      asked_of_next hnext
    simp only [Req.promised, Req.recordBatch, hacc, hlisting, Bool.true_and, Option.getD_some,
      Option.getD_none]
    split <;> simp_all
  refine committed_le (if T.mine r.user then freshNames batch listing else []) ?_ ?_
  · intro m hm hown
    by_cases hfresh : m ∈ freshNames batch listing
    · left
      have howner : record s.owners (freshNames batch listing) r.user m
          = some ⟨teamOf r.user, r.user.map User.id⟩ := record_of_mem hfresh
      rw [if_pos (T.mine_of_own _ (howner ▸ hown))]
      exact hfresh
    · right
      have howner : record s.owners (freshNames batch listing) r.user m = s.owners m :=
        record_of_notMem hfresh
      refine ⟨?_, by simpa [howner] using hown⟩
      rcases mem_live.mp hm with hc | ⟨r', hr', hm'⟩
      · exact mem_live.mpr (.inl hc)
      · rcases mem_setReq hr' with ho | hold
        · -- a name of the batch that is not new stands in the listing
          obtain rfl := Option.some.inj ho
          have hbatch : m ∈ batch := by
            simpa [Req.live, Req.recordBatch, Req.skipped, hacc] using hm'
          have hskipped : m ∈ r.skipped := by
            simp only [freshNames, List.mem_filter, hbatch, true_and, decide_eq_true_eq,
              not_not] at hfresh
            simp [Req.skipped, hlisting, hnext, hbatch, hfresh]
          exact mem_live_of_request hr (by simp [Req.live, hacc, hskipped])
        · exact mem_live.mpr (.inr ⟨r', hold, hm'⟩)
  · have hlen : (if T.mine r.user then freshNames batch listing else []).length
        = if T.mine r.user then (freshNames batch listing).length else 0 := by
      split <;> rfl
    rw [hlen]
    simp only [Option.elim_some] at hpromised
    change (s.setReq i _).promised T + _ ≤ _
    omega

/-- A container that a worker creates was held. -/
lemma committed_create (h : step s (.create i n) = some s') : committed T s' ≤ committed T s := by
  obtain ⟨r, hr, hheld, -, rfl⟩ := step_create h
  refine committed_le [] (fun m hm hown => .inr ⟨?_, hown⟩) ?_
  · rcases mem_live.mp hm with hc | ⟨r', hr', hm'⟩
    · rcases List.mem_cons.mp hc with rfl | hc
      · exact mem_live_of_request hr (List.mem_append_left _ hheld)
      · exact mem_live.mpr (.inl hc)
    · rcases mem_setReq hr' with ho | hold
      · obtain rfl := Option.some.inj ho
        refine mem_live_of_request hr ?_
        rcases List.mem_append.mp hm' with hm' | hm'
        · exact List.mem_append_left _ (List.mem_of_mem_erase hm')
        · exact List.mem_append_right _ hm'
      · exact mem_live.mpr (.inr ⟨r', hold, hm'⟩)
  · have := promised_setReq (T := T) hr (some { r with held := r.held.erase n })
    change (s.setReq i _).promised T + _ ≤ _
    simp only [Option.elim_some, Req.promised, List.length_nil] at this ⊢
    omega

lemma committed_fail (h : step s (.fail i n) = some s') : committed T s' ≤ committed T s := by
  obtain ⟨r, hr, -, rfl⟩ := step_fail h
  refine committed_setReq hr ?_ le_rfl
  rintro _ ⟨⟩ m hm
  refine mem_live_of_request hr ?_
  rcases List.mem_append.mp hm with hm | hm
  · exact List.mem_append_left _ (List.mem_of_mem_erase hm)
  · exact List.mem_append_right _ hm

lemma committed_delete (h : step s (.delete n) = some s') : committed T s' ≤ committed T s := by
  obtain ⟨-, rfl⟩ := step_delete h
  have hremoved : committed T { s.release [n] with
      containers := s.containers.filter (· ≠ n), owners := forget s.owners [n] }
      ≤ committed T (s.release [n]) := by
    refine committed_le [] (fun m hm hown => .inr ⟨?_, ?_⟩) le_rfl
    · rcases mem_live.mp hm with hc | hr
      · exact mem_live.mpr (.inl (List.mem_of_mem_filter hc))
      · exact mem_live.mpr (.inr hr)
    · by_cases hmn : m = n
      · -- an owner that is forgotten counts only where all owners do
        subst hmn
        exact T.own_none (by simpa [forget] using hown) _
      · simpa [forget, hmn, Platform.release] using hown
  exact hremoved.trans (committed_release T s [n]).le

lemma committed_destroy (h : step s (.destroy n) = some s') : committed T s' ≤ committed T s := by
  obtain ⟨-, rfl⟩ := step_destroy h
  exact committed_removed n

/-- **The only steps that may raise commitments** are the acceptance of a request and an
administrator's reassignment of containers. -/
lemma step_commitments {a : Action} (hstep : step s a = some s') :
    (∃ i r listing, a = .check i ∧ s.request i = some r ∧ r.snapshot = some listing ∧
      checkRequest s.site s.owners r.user r.work listing = .ok () ∧
      s' = s.setReq i (some r.accept)) ∨
    (∃ names team, a = .assign names team ∧
      s' = { s.release names with owners := assign s.owners names team }) ∨
    (∃ site, a = .configure site ∧ s' = { s with site := site }) ∨
    (s'.site = s.site ∧ ∀ T, committed T s' ≤ committed T s) := by
  cases a with
  | deploy user base count =>
    obtain rfl := Option.some.inj hstep
    exact .inr (.inr (.inr ⟨rfl, fun T => (committed_submit T s user _).le⟩))
  | benchmark user base phases =>
    obtain rfl := Option.some.inj hstep
    exact .inr (.inr (.inr ⟨rfl, fun T => (committed_submit T s user _).le⟩))
  | list i =>
    refine .inr (.inr (.inr ⟨?_, fun T => committed_list hstep⟩))
    obtain ⟨r, -, -, rfl⟩ := step_list hstep
    rfl
  | check i =>
    obtain ⟨r, listing, hr, hlisting, -, ⟨hok, rfl⟩ | ⟨-, rfl⟩⟩ := step_check hstep
    · exact .inl ⟨i, r, listing, rfl, hr, hlisting, hok, rfl⟩
    · exact .inr (.inr (.inr ⟨rfl, fun T => committed_drop hr⟩))
  | record i =>
    refine .inr (.inr (.inr ⟨?_, fun T => committed_record hstep⟩))
    obtain ⟨r, listing, batch, rest, -, -, -, -, -, rfl⟩ := step_record hstep
    rfl
  | create i n =>
    refine .inr (.inr (.inr ⟨?_, fun T => committed_create hstep⟩))
    obtain ⟨r, -, -, -, rfl⟩ := step_create hstep
    rfl
  | fail i n =>
    refine .inr (.inr (.inr ⟨?_, fun T => committed_fail hstep⟩))
    obtain ⟨r, -, -, rfl⟩ := step_fail hstep
    rfl
  | finish i =>
    obtain ⟨r, hr, rfl⟩ := step_finish hstep
    exact .inr (.inr (.inr ⟨rfl, fun T => committed_drop hr⟩))
  | delete n =>
    refine .inr (.inr (.inr ⟨?_, fun T => committed_delete hstep⟩))
    obtain ⟨-, rfl⟩ := step_delete hstep
    rfl
  | destroy n =>
    refine .inr (.inr (.inr ⟨?_, fun T => committed_destroy hstep⟩))
    obtain ⟨-, rfl⟩ := step_destroy hstep
    rfl
  | assign names team =>
    obtain rfl := Option.some.inj hstep
    exact .inr (.inl ⟨names, team, rfl, rfl⟩)
  | configure site =>
    obtain rfl := Option.some.inj hstep
    exact .inr (.inr (.inl ⟨site, rfl, rfl⟩))

end Steps

end Habeny.Tenancy
