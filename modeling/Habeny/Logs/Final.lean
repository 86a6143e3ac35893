import Habeny.Lib.Transition
import Habeny.Logs.Schedules

/-!
# Schedules that have ended

A runner whose schedule has ended has ended itself, or is cancelled because the schedule was
stopped (`Sound`).  So within one process a schedule that has ended stays as it is, and a stopped
one starts no upload.  Over a restart this holds as far as the end was saved, and it holds of a
stop as far as what is stopped had not ended otherwise (`Harmless`).
-/

namespace Habeny.Logs.Schedules

open Habeny.Lib

/-! ## What is claimed -/

/-- A schedule that has ended keeps its status. -/
def Kept (s s' : Schedules) : Prop :=
  ∀ id r, s.memory.get id = some r → r.status.final = true →
    ∃ r', s'.memory.get id = some r' ∧ r'.status = r.status

/-- No upload of a schedule whose stop was answered is started. -/
def Silent (s s' : Schedules) : Prop :=
  ∀ id, s.answered id = true → s'.uploads.count id = s.uploads.count id

/-- The condition under which that holds: no schedule that has completed or failed is stopped, and
the process is lost only when every schedule that has ended was saved with its status. -/
def Harmless (s : Schedules) : ScheduleAction → Prop
  | .stop id allowed => allowed = true →
      ∀ r, s.memory.get id = some r → r.status ≠ .completed ∧ r.status ≠ .error
  | .restart => ∀ id r, s.memory.get id = some r → r.status.final = true →
      ∃ r', s.saved.get id = some r' ∧ r'.status = r.status
  | _ => True

variable {s s' s'' : Schedules}

lemma Kept.refl (s : Schedules) : Kept s s := fun _ r hr _ => ⟨r, hr, rfl⟩

lemma Kept.trans (h : Kept s s') (h' : Kept s' s'') : Kept s s'' := by
  intro id r hr hfinal
  obtain ⟨r', hr', hstatus⟩ := h id r hr hfinal
  obtain ⟨r'', hr'', hstatus'⟩ := h' id r' hr' (by rw [hstatus]; exact hfinal)
  exact ⟨r'', hr'', hstatus'.trans hstatus⟩

/-- A schedule that had not ended may be replaced by anything. -/
lemma Kept.of_other {id : Text} {r : Schedule} (hself : s'.memory.get id = some r)
    (hother : ∀ n, n ≠ id → s'.memory.get n = s.memory.get n)
    (h : ∀ old, s.memory.get id = some old → old.status.final = true → r.status = old.status) :
    Kept s s' := by
  intro n old hold hfinal
  by_cases hn : n = id
  · subst hn
    exact ⟨r, hself, h old hold hfinal⟩
  · exact ⟨old, by rw [hother n hn, hold], rfl⟩

/-- The invariant. -/
structure Sound (s : Schedules) : Prop where
  /-- What was answered to be stopped is stopped. -/
  stopped : ∀ id, s.answered id = true → ∃ r, s.memory.get id = some r ∧ r.status = .stopped
  /-- A runner that goes on after the end of its schedule was cancelled by a stop. -/
  ended : ∀ id r t, s.memory.get id = some r → r.status.final = true → s.runners id = some t →
    t.ended = false → t.cancelled = true ∧ r.status = .stopped
  /-- A schedule that is still to be looked at has no runner. -/
  idle : ∀ id ∈ s.toResume, s.runners id = none
  nodup : s.toResume.Nodup

lemma sound_start : Sound start where
  stopped := fun _ h => absurd h (by simp [start])
  ended := fun _ _ _ h => absurd h (by simp [start])
  idle := fun _ h => absurd h List.not_mem_nil
  nodup := List.nodup_nil

/-- What was answered stays stopped when what has ended is kept. -/
lemma Sound.stopped_of_kept (hs : Sound s) (hkept : Kept s s')
    (hanswered : ∀ id, s'.answered id = true → s.answered id = true) (id : Text)
    (h : s'.answered id = true) : ∃ r, s'.memory.get id = some r ∧ r.status = .stopped := by
  obtain ⟨r, hr, hstatus⟩ := hs.stopped id (hanswered id h)
  obtain ⟨r', hr', hsame⟩ := hkept id r hr (by rw [hstatus]; rfl)
  exact ⟨r', hr', hsame.trans hstatus⟩

/-! ## A round -/

/-- A round that does not end the runner leaves the status as it is. -/
lemma round_of_not_ended {t : Runner} {start now : ℤ} {course : Course} {r : Schedule}
    (h : (t.round start now course r).2 = false) :
    (t.round start now course r).1.status = r.status := by
  cases course with
  | listRaises e => exact absurd h (by simp [Runner.round])
  | missing => exact absurd h (by simp [Runner.round])
  | uploadRaises e => exact absurd h (by simp [Runner.round])
  | uploaded failure =>
    simp only [Runner.round] at h ⊢
    split_ifs at h ⊢
    rfl

lemma recover_status (r : Schedule) :
    r.recover.status = if r.status = .starting ∨ r.status = .running then .interrupted
      else r.status := by
  unfold Schedule.recover
  split <;> simp_all

lemma recover_of_final {r : Schedule} (h : r.status.final = true) :
    r.recover.status = r.status := by
  rw [recover_status, if_neg]
  rintro (hs | hs) <;> rw [hs] at h <;> exact absurd h (by decide)

lemma not_final_recover {r : Schedule} (h : r.recover.status.final = true) :
    r.status.final = true := by
  rw [recover_status] at h
  split_ifs at h
  · exact absurd h (by decide)
  · exact h

/-! ## Every step keeps what has ended -/

/-- What a step has to do: it keeps the invariant, what has ended and what was answered, and starts
no upload that was to be stopped. -/
structure Keeps (s s' : Schedules) : Prop where
  sound : Sound s'
  kept : Kept s s'
  silent : Silent s s'
  answered : ∀ id, s.answered id = true → s'.answered id = true

lemma Sound.keeps_self (hs : Sound s) : Keeps s s := ⟨hs, .refl s, fun _ _ => rfl, fun _ h => h⟩

/-- A change of one schedule and its runner. -/
lemma Sound.keeps_set (hs : Sound s) {id : Text} {r : Schedule}
    (hself : s'.memory.get id = some r)
    (hother : ∀ n, n ≠ id → s'.memory.get n = s.memory.get n ∧ s'.runners n = s.runners n)
    (hanswered : s'.answered = s.answered) (hidle : ∀ n ∈ s'.toResume, s'.runners n = none)
    (hnodup : s'.toResume.Nodup) (hsilent : Silent s s')
    (hkept : ∀ old, s.memory.get id = some old → old.status.final = true →
      r.status = old.status)
    (hended : ∀ t, s'.runners id = some t → r.status.final = true → t.ended = false →
      t.cancelled = true ∧ r.status = .stopped) :
    Keeps s s' := by
  have hkept' : Kept s s' := .of_other hself (fun n hn => (hother n hn).1) hkept
  refine ⟨⟨hs.stopped_of_kept hkept' fun n h => by rwa [hanswered] at h, ?_, hidle, hnodup⟩, hkept',
    hsilent, fun n h => by rwa [hanswered]⟩
  intro n r' t hr hfinal ht hlive
  by_cases hn : n = id
  · subst hn
    obtain rfl := Option.some.inj (hself.symm.trans hr)
    exact hended t ht hfinal hlive
  · obtain ⟨hmemory, hrunners⟩ := hother n hn
    rw [hmemory] at hr
    rw [hrunners] at ht
    exact hs.ended n r' t hr hfinal ht hlive

/-- The same while no schedule is to be looked at. -/
lemma Sound.keeps_serving (hs : Sound s) {id : Text} {r : Schedule} {t : Runner}
    (hself : s'.memory.get id = some r)
    (hother : ∀ n, n ≠ id → s'.memory.get n = s.memory.get n)
    (hrunners : s'.runners = Function.update s.runners id (some t))
    (hanswered : s'.answered = s.answered) (hresume : s'.toResume = []) (hsilent : Silent s s')
    (hkept : ∀ old, s.memory.get id = some old → old.status.final = true →
      r.status = old.status)
    (hended : r.status.final = true → t.ended = false → t.cancelled = true ∧ r.status = .stopped) :
    Keeps s s' := by
  refine hs.keeps_set hself (fun n hn => ⟨hother n hn, ?_⟩) hanswered ?_ ?_ hsilent hkept ?_
  · rw [hrunners, Function.update_of_ne hn]
  · rw [hresume]
    exact fun n hn => absurd hn List.not_mem_nil
  · rw [hresume]
    exact List.nodup_nil
  · intro t' ht'
    rw [hrunners, Function.update_self, Option.some.injEq] at ht'
    subst ht'
    exact hended

lemma keeps_create (hs : Sound s) {id agentId : Text} (upload : LogUpload) (intervalSeconds : ℤ)
    (durationSeconds : Option ℤ) (indefinite allowed : Bool) (now : ℤ) (hresume : s.toResume = [])
    (hnew : s.memory.get id = none) :
    Keeps s
      (s.create id agentId upload intervalSeconds durationSeconds indefinite allowed now) := by
  unfold create
  split_ifs
  · exact hs.keeps_self
  · refine hs.keeps_serving Dict.get_set_self (fun n hn => Dict.get_set_of_ne hn) rfl rfl hresume
      (fun _ _ => rfl) (fun old hold => ?_) fun hfinal => ?_
    · exact absurd (hold.symm.trans hnew) (by simp)
    · exact absurd hfinal (by simp [ScheduleStatus.final])

/-- A cancelled runner ends, and its schedule is stopped or interrupted. -/
lemma keeps_run_cancelled (hs : Sound s) {id : Text} {t : Runner} {r : Schedule} (course : Course)
    (now : ℤ) (hresume : s.toResume = []) (ht : s.runners id = some t)
    (hr : s.memory.get id = some r) (hlive : t.ended = false) (hcancelled : t.cancelled = true) :
    Keeps s (s.run id course now t r) := by
  have hold : ∀ old, s.memory.get id = some old → old = r := fun old h =>
    Option.some.inj (h.symm.trans hr)
  unfold run
  rw [if_pos hcancelled]
  split_ifs
  · refine hs.keeps_serving Dict.get_set_self (fun n hn => Dict.get_set_of_ne hn) rfl rfl hresume
      (fun _ _ => rfl) (fun old h hfinal => ?_) fun _ h => absurd h (by simp)
    obtain rfl := hold old h
    exact (hs.ended id old t hr hfinal ht hlive).2.symm
  · exact hs.keeps_serving hr (fun _ _ => rfl) rfl rfl hresume (fun _ _ => rfl)
      (fun old h _ => by rw [hold old h]) fun _ h => absurd h (by simp)

/-- A runner that is not cancelled goes on, since its schedule has not ended. -/
lemma keeps_run (hs : Sound s) {id : Text} {t : Runner} {r : Schedule} (course : Course) (now : ℤ)
    (hresume : s.toResume = []) (ht : s.runners id = some t) (hr : s.memory.get id = some r)
    (hlive : t.ended = false) : Keeps s (s.run id course now t r) := by
  by_cases hcancelled : t.cancelled = true
  · exact keeps_run_cancelled hs course now hresume ht hr hlive hcancelled
  have hopen : r.status.final ≠ true := fun h => hcancelled (hs.ended id r t hr h ht hlive).1
  unfold run
  rw [if_neg hcancelled]
  refine hs.keeps_serving Dict.get_set_self (fun n hn => Dict.get_set_of_ne hn) rfl rfl hresume
    (fun n hn => ?_) (fun old h hfinal => ?_) fun hfinal hgoes => ?_
  · -- a stopped schedule is another one
    have hne : n ≠ id := by
      rintro rfl
      obtain ⟨r', hr', hstatus⟩ := hs.stopped n hn
      obtain rfl := Option.some.inj (hr'.symm.trans hr)
      exact hopen (by rw [hstatus]; rfl)
    dsimp only
    split_ifs
    · rw [List.count_cons_of_ne hne.symm]
    · rfl
  · obtain rfl := Option.some.inj (h.symm.trans hr)
    exact absurd hfinal hopen
  · rw [round_of_not_ended hgoes] at hfinal
    split_ifs at hfinal
    · exact absurd hfinal hopen
    · exact absurd hfinal (by simp [ScheduleStatus.final])

lemma cancel_eq_some {id n : Text} {t : Runner} (h : s.cancel id n = some t) :
    ∃ t₀, s.runners n = some t₀ ∧ t.ended = t₀.ended ∧
      (t₀.cancelled = true → t.cancelled = true) ∧
      (n = id → t.ended = false → t.cancelled = true) := by
  unfold cancel at h
  by_cases hn : n = id
  · subst hn
    rw [Function.update_self] at h
    obtain ⟨t₀, ht₀, rfl⟩ := Option.map_eq_some_iff.mp h
    refine ⟨t₀, ht₀, ?_⟩
    split_ifs with hended
    · exact ⟨rfl, fun h => h, fun _ h => absurd hended (by simp [h])⟩
    · exact ⟨rfl, fun _ => rfl, fun _ _ => rfl⟩
  · rw [Function.update_of_ne hn] at h
    exact ⟨t, h, rfl, fun h => h, fun heq => absurd heq hn⟩

lemma keeps_stop (hs : Sound s) {id : Text} {allowed : Bool} (hresume : s.toResume = [])
    (hguard : Harmless s (.stop id allowed)) : Keeps s (s.stop id allowed) := by
  unfold stop
  cases hr : s.memory.get id with
  | none => exact hs.keeps_self
  | some r =>
    cases allowed with
    | false => exact hs.keeps_self
    | true =>
      dsimp only
      rw [if_pos rfl]
      have hkept : Kept s { s with
          memory := s.memory.set id { r with status := .stopped }
          runners := s.cancel id
          answered := Function.update s.answered id true } := by
        refine .of_other Dict.get_set_self (fun n hn => Dict.get_set_of_ne hn)
          fun old hold hfinal => ?_
        obtain rfl := Option.some.inj (hold.symm.trans hr)
        obtain ⟨hcompleted, herror⟩ := hguard rfl old hr
        revert hfinal hcompleted herror
        cases old.status <;> simp [ScheduleStatus.final]
      refine ⟨⟨fun n hn => ?_, fun n r' t hr' hfinal ht hlive => ?_, ?_, ?_⟩, hkept, fun _ _ => rfl,
        fun n hn => ?_⟩
      · by_cases heq : n = id
        · subst heq
          exact ⟨_, Dict.get_set_self, rfl⟩
        · obtain ⟨r', hr', hstatus⟩ := hs.stopped n (by simpa [Function.update_of_ne heq] using hn)
          exact ⟨r', by rw [← hr']; exact Dict.get_set_of_ne heq, hstatus⟩
      · obtain ⟨t₀, ht₀, hended, hkeeps, hcancels⟩ := cancel_eq_some ht
        by_cases heq : n = id
        · subst heq
          obtain rfl := Option.some.inj (Dict.get_set_self.symm.trans hr')
          exact ⟨hcancels rfl hlive, rfl⟩
        · rw [Dict.get_set_of_ne heq] at hr'
          obtain ⟨hcancelled, hstatus⟩ := hs.ended n r' t₀ hr' hfinal ht₀ (hended ▸ hlive)
          exact ⟨hkeeps hcancelled, hstatus⟩
      · rw [hresume]
        exact fun n hn => absurd hn List.not_mem_nil
      · rw [hresume]
        exact List.nodup_nil
      · by_cases heq : n = id
        · rw [heq]
          exact Function.update_self ..
        · exact (Function.update_of_ne heq ..).trans hn

lemma keeps_save (hs : Sound s) (id : Text) : Keeps s (s.save id) := by
  unfold save
  cases s.memory.get id with
  | none => exact hs.keeps_self
  | some r =>
    exact ⟨⟨hs.stopped, hs.ended, hs.idle, hs.nodup⟩, .refl _, fun _ _ => rfl, fun _ h => h⟩

/-- Interrupting what is in progress keeps what has ended. -/
lemma keeps_interrupt (hs : Sound s) : Keeps s s.interruptForShutdown := by
  have hkept : Kept s s.interruptForShutdown := fun id r hr hfinal =>
    ⟨r.recover, by simp [interruptForShutdown, hr], recover_of_final hfinal⟩
  refine ⟨⟨hs.stopped_of_kept hkept fun _ h => h, fun id r t hr hfinal ht hlive => ?_, hs.idle,
    hs.nodup⟩, hkept, fun _ _ => rfl, fun _ h => h⟩
  obtain ⟨old, hold, rfl⟩ := Option.map_eq_some_iff.mp hr
  have hfinal' := not_final_recover hfinal
  rw [recover_of_final hfinal']
  exact hs.ended id old t hold hfinal' ht hlive

lemma keeps_cancelSoon (hs : Sound s) (id : Text) (hresume : s.toResume = []) (soon : List Text) :
    Keeps s { s with runners := s.cancel id, cancelSoon := soon } := by
  refine ⟨⟨hs.stopped, fun n r t hr hfinal ht hlive => ?_, ?_, hs.nodup⟩,
    fun n r hr _ => ⟨r, hr, rfl⟩,
    fun _ _ => rfl, fun _ h => h⟩
  · obtain ⟨t₀, ht₀, hended, hkeeps, -⟩ := cancel_eq_some ht
    obtain ⟨hcancelled, hstatus⟩ := hs.ended n r t₀ hr hfinal ht₀ (hended ▸ hlive)
    exact ⟨hkeeps hcancelled, hstatus⟩
  · dsimp only
    rw [hresume]
    exact fun n hn => absurd hn List.not_mem_nil

/-- **A restart** keeps what has ended as far as it was saved. -/
lemma keeps_restart (hs : Sound s) (hguard : Harmless s .restart) : Keeps s s.restart := by
  have hkept : Kept s s.restart := by
    intro id r hr hfinal
    obtain ⟨saved, hsaved, hstatus⟩ := hguard id r hr hfinal
    refine ⟨saved.recover, by simp [restart, hsaved], ?_⟩
    rw [recover_of_final (by rw [hstatus]; exact hfinal), hstatus]
  exact ⟨⟨hs.stopped_of_kept hkept fun _ h => h, fun _ _ _ _ _ ht => absurd ht (by simp [restart]),
    fun _ _ => rfl, s.saved.nodup⟩, hkept, fun _ _ => rfl, fun _ h => h⟩

/-- A schedule that is looked at has been interrupted, and has no runner. -/
lemma keeps_resumeNext (hs : Sound s) {id : Text} {rest : List Text} {r : Schedule} (now : ℤ)
    (hresume : s.toResume = id :: rest) (hr : s.memory.get id = some r) :
    Keeps s { s.resume id now r with toResume := rest } := by
  have hnodup := hs.nodup
  rw [hresume, List.nodup_cons] at hnodup
  have hidle : s.runners id = none := hs.idle id (by rw [hresume]; exact List.mem_cons_self)
  have hidleRest : ∀ n ∈ rest, s.runners n = none := fun n hn =>
    hs.idle n (by rw [hresume]; exact List.mem_cons_of_mem id hn)
  unfold resume
  by_cases hresumable : r.resumable = true
  swap
  · rw [if_pos (by simpa using hresumable)]
    exact ⟨⟨hs.stopped, hs.ended, hidleRest, hnodup.2⟩, fun n r hr _ => ⟨r, hr, rfl⟩,
      fun _ _ => rfl,
      fun _ h => h⟩
  rw [if_neg (by simpa using hresumable)]
  have hopen : ∀ old, s.memory.get id = some old → old.status.final ≠ true := by
    intro old hold
    obtain rfl := Option.some.inj (hold.symm.trans hr)
    simp only [Schedule.resumable, Bool.and_eq_true, decide_eq_true_eq] at hresumable
    rw [hresumable.1]
    decide
  by_cases hover : ((r.remaining now).any fun d => decide (d ≤ 0)) = true
  · rw [if_pos hover]
    refine hs.keeps_set (r := r.ranOut) Dict.get_set_self (fun n hn => ⟨Dict.get_set_of_ne hn, rfl⟩)
      rfl hidleRest hnodup.2 (fun _ _ => rfl) (fun old h hf => absurd hf (hopen old h)) ?_
    exact fun t ht => absurd (hidle.symm.trans ht) (by simp)
  · rw [if_neg hover]
    refine hs.keeps_set (r := r.resumed now) Dict.get_set_self
      (fun n hn => ⟨Dict.get_set_of_ne hn, Function.update_of_ne hn ..⟩) rfl
      (fun n hn => ?_) hnodup.2
      (fun _ _ => rfl) (fun old h hf => absurd hf (hopen old h)) fun _ _ hf _ => ?_
    swap
    · exact absurd hf (by simp [Schedule.resumed, ScheduleStatus.final])
    have hne : n ≠ id := by
      rintro rfl
      exact hnodup.1 hn
    exact (Function.update_of_ne hne ..).trans (hidleRest n hn)

/-- **Every harmless step keeps what has ended.** -/
lemma step_keeps {a : ScheduleAction} (hs : Sound s) (hguard : Harmless s a)
    (hstep : step s a = some s') : Keeps s s' := by
  cases a with
  | create id agentId upload intervalSeconds durationSeconds indefinite allowed now =>
    simp only [step] at hstep
    split_ifs at hstep with h
    obtain rfl := Option.some.inj hstep
    exact keeps_create hs upload intervalSeconds durationSeconds indefinite allowed now h.1 h.2
  | run id course now =>
    simp only [step] at hstep
    cases ht : s.runners id with
    | none => simp [ht] at hstep
    | some t =>
      cases hr : s.memory.get id with
      | none => simp [ht, hr] at hstep
      | some r =>
        simp only [ht, hr] at hstep
        split_ifs at hstep with h
        obtain rfl := Option.some.inj hstep
        exact keeps_run hs course now h.1 ht hr h.2
  | stop id allowed =>
    simp only [step] at hstep
    split_ifs at hstep with h
    obtain rfl := Option.some.inj hstep
    exact keeps_stop hs h hguard
  | save id =>
    obtain rfl := Option.some.inj hstep
    exact keeps_save hs id
  | interruptForShutdown =>
    obtain rfl := Option.some.inj hstep
    exact keeps_interrupt hs
  | cancelSoon id =>
    simp only [step] at hstep
    split_ifs at hstep with h
    obtain rfl := Option.some.inj hstep
    exact keeps_cancelSoon hs id h.1 _
  | restart =>
    obtain rfl := Option.some.inj hstep
    exact keeps_restart hs hguard
  | resumeNext now =>
    simp only [step] at hstep
    cases hresume : s.toResume with
    | nil => simp [hresume] at hstep
    | cons id rest =>
      cases hr : s.memory.get id with
      | some r =>
        simp only [hresume, hr, Option.some.injEq] at hstep
        subst hstep
        exact keeps_resumeNext hs now hresume hr
      | none =>
        simp only [hresume, hr, Option.some.injEq] at hstep
        subst hstep
        have hnodup := hs.nodup
        rw [hresume] at hnodup
        refine ⟨⟨hs.stopped, hs.ended, fun n hn => ?_, (List.nodup_cons.mp hnodup).2⟩,
          fun n r hr _ => ⟨r, hr, rfl⟩, fun _ _ => rfl, fun _ h => h⟩
        exact hs.idle n (by rw [hresume]; exact List.mem_cons_of_mem id hn)

/-- What has ended is kept by every harmless run. -/
lemma run_keeps {as : List ScheduleAction} (hs : Sound s) (hrun : Run step Harmless s as s') :
    Keeps s s' := by
  refine hrun.invariant (P := Keeps s) (fun h hguard hstep => ?_) hs.keeps_self
  have hnext := step_keeps h.sound hguard hstep
  refine ⟨hnext.sound, h.kept.trans hnext.kept, fun id hid => ?_, fun id hid =>
    hnext.answered id (h.answered id hid)⟩
  rw [hnext.silent id (h.answered id hid), h.silent id hid]

/-- **A schedule that has ended stays as it is.**  In every run whose steps are harmless, no upload
of a schedule is started after its stop was answered, over crashes and restarts too, and a status
that is completed, stopped or error never changes. -/
theorem ended_stays {as bs : List ScheduleAction} (hrun : Run step Harmless start as s)
    (hafter : Run step Harmless s bs s') : Silent s s' ∧ Kept s s' := by
  have hs := (run_keeps sound_start hrun).sound
  have h := run_keeps hs hafter
  exact ⟨h.silent, h.kept⟩

/-! ## A stop that is lost -/

/-- A schedule without an end. -/
def createWeb : ScheduleAction :=
  .create "s1".toList "web-0001".toList ⟨"hello".toList, "/var/log/test.log".toList, true⟩ 60 none
    true true 0

/-- A round that uploads. -/
def uploadWeb (now : ℤ) : ScheduleAction := .run "s1".toList (.uploaded none) now

/-- What an observer sees of the schedule: its status, how often it uploaded, and whether its stop
was answered. -/
def seen (s : Schedules) : Option ScheduleStatus × ℕ × Bool :=
  ((s.memory.get "s1".toList).map Schedule.status, s.uploads.count "s1".toList,
    s.answered "s1".toList)

/-- What is seen after one run and after another one that goes on from there. -/
def seenTwice (as bs : List ScheduleAction) :
    Option ((Option ScheduleStatus × ℕ × Bool) × Option ScheduleStatus × ℕ × Bool) :=
  (exec step start as).bind fun s => (exec step s bs).map fun s' => (seen s, seen s')

lemma exists_of_seenTwice {as bs : List ScheduleAction}
    {o : (Option ScheduleStatus × ℕ × Bool) × Option ScheduleStatus × ℕ × Bool}
    (h : seenTwice as bs = some o) :
    ∃ s s', exec step start as = some s ∧ exec step s bs = some s' ∧
      seen s = o.1 ∧ seen s' = o.2 := by
  obtain ⟨s, hs, hrest⟩ := Option.bind_eq_some_iff.mp h
  obtain ⟨s', hs', rfl⟩ := Option.map_eq_some_iff.mp hrest
  exact ⟨s, s', hs, hs', rfl, rfl⟩

/-- **A stop is lost, and a completed schedule is stopped.**  A schedule that is stopped after it
was saved as running uploads again when the process is lost and started anew; and one that has
completed becomes a stopped one. -/
theorem ended_changes :
    (∃ as bs s s', Run step anyStep start as s ∧ Run step anyStep s bs s' ∧ ¬Silent s s') ∧
      ∃ as bs s s', Run step anyStep start as s ∧ Run step anyStep s bs s' ∧ ¬Kept s s' := by
  constructor
  · have hseen : seenTwice [createWeb, uploadWeb 0, .save "s1".toList, .stop "s1".toList true]
        [.restart, .resumeNext 10, uploadWeb 20]
        = some ((some .stopped, 1, true), (some .running, 2, true)) := by decide +kernel
    obtain ⟨s, s', hs, hs', h, h'⟩ := exists_of_seenTwice hseen
    simp only [seen, Prod.mk.injEq] at h h'
    refine ⟨_, _, s, s', run_of_exec hs, run_of_exec hs', fun hsilent => ?_⟩
    have hcount := hsilent _ h.2.2
    rw [h.2.1, h'.2.1] at hcount
    exact absurd hcount (by decide)
  · have hseen : seenTwice [.create "s1".toList "web-0001".toList
        ⟨"hello".toList, "/var/log/test.log".toList, true⟩ 60 (some 10) false true 0, uploadWeb 0,
        uploadWeb (60 * second)] [.stop "s1".toList true]
        = some ((some .completed, 2, false), (some .stopped, 2, true)) := by decide +kernel
    obtain ⟨s, s', hs, hs', h, h'⟩ := exists_of_seenTwice hseen
    simp only [seen, Prod.mk.injEq] at h h'
    refine ⟨_, _, s, s', run_of_exec hs, run_of_exec hs', fun hkept => ?_⟩
    obtain ⟨r, hr, hstatus⟩ := Option.map_eq_some_iff.mp h.1
    obtain ⟨r', hr', hsame⟩ := hkept _ r hr (by rw [hstatus]; rfl)
    rw [hr', Option.map_some, hsame, hstatus] at h'
    exact absurd h'.1 (by simp)

/-- Whether a step is harmless. -/
def isHarmless (s : Schedules) : ScheduleAction → Bool
  | .stop id _ => (s.memory.get id).all fun r => decide (r.status ≠ .completed ∧ r.status ≠ .error)
  | .restart => s.memory.keys.all fun id => (s.memory.get id).all fun r =>
      !r.status.final || (s.saved.get id).any fun r' => decide (r'.status = r.status)
  | _ => true

lemma harmless_of_isHarmless (s : Schedules) (a : ScheduleAction) (h : isHarmless s a = true) :
    Harmless s a := by
  cases a with
  | stop id allowed =>
    intro _ r hr
    simp only [isHarmless, hr, Option.all_some] at h
    exact of_decide_eq_true h
  | restart =>
    intro id r hr hfinal
    have hid := List.all_eq_true.mp h id (Dict.mem_keys_of_get hr)
    simp only [hr, Option.all_some, hfinal, Bool.not_true, Bool.false_or] at hid
    obtain ⟨r', hr', hsame⟩ := (Option.any_eq_true _ _).mp hid
    exact ⟨r', hr', of_decide_eq_true hsame⟩
  | create | run | save | interruptForShutdown | cancelSoon | resumeNext => trivial

theorem ended_stays_savedStop : ∃ s s', exec step start
      [createWeb, uploadWeb 0, .stop "s1".toList true, .save "s1".toList] = some s ∧
    exec step s [.restart, .resumeNext 10] = some s' ∧ s.answered "s1".toList = true ∧
    Silent s s' ∧ Kept s s' := by
  have hseen : seenTwice [createWeb, uploadWeb 0, .stop "s1".toList true, .save "s1".toList]
      [.restart, .resumeNext 10] = some ((some .stopped, 1, true), (some .stopped, 1, true)) := by
    decide +kernel
  obtain ⟨s, s', hs, hs', h, -⟩ := exists_of_seenTwice hseen
  have hmeets : execMeets step isHarmless start
      [createWeb, uploadWeb 0, .stop "s1".toList true, .save "s1".toList] = true := by
    decide +kernel
  have hmeets' : (exec step start [createWeb, uploadWeb 0, .stop "s1".toList true,
      .save "s1".toList]).all (fun s => execMeets step isHarmless s [.restart, .resumeNext 10])
      = true := by
    decide +kernel
  rw [hs, Option.all_some] at hmeets'
  exact ⟨s, s', hs, hs', congrArg (fun o => o.2.2) h,
    ended_stays (run_of_execMeets harmless_of_isHarmless hs hmeets)
      (run_of_execMeets harmless_of_isHarmless hs' hmeets')⟩

end Habeny.Logs.Schedules
