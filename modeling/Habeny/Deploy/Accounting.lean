import Habeny.Deploy.Workers

/-!
# Every container of a deployment is accounted for

The names of a deployment are at every moment split into the queued ones, the ones whose
futures are pending, and the ones with a result; within an iteration there are also those
that have been given up or picked up and are still to be recorded (`Accounted`).  Each result
comes with the one event that settles its container.
-/

namespace Habeny.Deploy

open Habeny.Lib Habeny.Agents

/-! ## Recording -/

/-- What recording a result leaves alone. -/
structure SameLoop (s s' : State) : Prop where
  queued : s'.queued = s.queued
  pending : s'.pending = s.pending
  started : s'.started = s.started
  outcome : s'.outcome = s.outcome
  stopNoted : s'.stopNoted = s.stopNoted
  raised : s'.raised = s.raised

lemma SameLoop.refl (s : State) : SameLoop s s := ⟨rfl, rfl, rfl, rfl, rfl, rfl⟩

lemma SameLoop.trans {s₁ s₂ s₃ : State} (h : SameLoop s₁ s₂) (h' : SameLoop s₂ s₃) :
    SameLoop s₁ s₃ :=
  ⟨h'.queued.trans h.queued, h'.pending.trans h.pending, h'.started.trans h.started,
    h'.outcome.trans h.outcome, h'.stopNoted.trans h.stopNoted, h'.raised.trans h.raised⟩

lemma sameLoop_recordResult (now : Text) (s : State) (r : Result) :
    SameLoop s (recordResult now s r) := by
  unfold recordResult
  cases r.success <;> exact ⟨rfl, rfl, rfl, rfl, rfl, rfl⟩

lemma sameLoop_recordAll (now : Text) (s : State) (rs : List Result) :
    SameLoop s (rs.foldl (recordResult now) s) := by
  induction rs generalizing s with
  | nil => exact .refl s
  | cons r rs ih => exact (sameLoop_recordResult now s r).trans (ih _)

lemma recordResult_recorded (now : Text) (s : State) (r : Result) :
    (recordResult now s r).recorded = s.recorded ++ [r.agentName] := by
  unfold recordResult
  cases r.success <;> simp [State.recorded, State.emit]

/-- A result is reported by one event, which settles its container. -/
lemma recordResult_updates (now : Text) (s : State) (r : Result) :
    ∃ u : Update, (recordResult now s r).updates = s.updates ++ [u] ∧
      u.container = some r.agentName ∧ u.settles = some r.agentName := by
  unfold recordResult
  cases r.success with
  | true => exact ⟨deployedUpdate r, rfl, rfl, rfl⟩
  | false => exact ⟨failedUpdate r, rfl, rfl, rfl⟩

/-! ## The parts -/

/-- Every name of the deployment is queued, pending, among `rest` or recorded, and in one of
these only. -/
def Parted (d : Deployment) (rest : List Text) (s : State) : Prop :=
  (s.queued ++ s.pending ++ rest ++ s.recorded).Perm d.names

namespace Parted

variable {d : Deployment} {rest : List Text} {s : State}

lemma nodup (h : Parted d rest s) : (s.queued ++ s.pending ++ rest ++ s.recorded).Nodup :=
  h.nodup_iff.mpr d.nodup

lemma perm {rest' : List Text} (h : Parted d rest s) (hp : rest.Perm rest') : Parted d rest' s :=
  (((hp.symm.append_left _).append_right _)).trans h

/-- What is still to be recorded is not recorded. -/
lemma not_recorded {n : Text} (h : Parted d (n :: rest) s) : n ∉ s.recorded := by
  intro hmem
  have := h.nodup
  rw [List.nodup_append] at this
  exact this.2.2 _ (by simp) _ hmem rfl

/-- Recording the result of a name that is still to be recorded. -/
lemma recordResult {r : Result} (h : Parted d (r.agentName :: rest) s) (now : Text) :
    Parted d rest (recordResult now s r) := by
  have hsame := sameLoop_recordResult now s r
  rw [Parted, hsame.queued, hsame.pending, recordResult_recorded]
  refine .trans ?_ h
  -- the name moves from the front of the rest to the end of the recorded ones
  simp only [List.append_assoc, List.cons_append]
  refine .append_left _ (.append_left _ ?_)
  rw [← List.append_assoc]
  exact List.perm_append_singleton _ _

lemma recordAll {rs : List Result} (h : Parted d (rs.map (·.agentName) ++ rest) s)
    (now : Text) : Parted d rest (rs.foldl (Deploy.recordResult now) s) := by
  induction rs generalizing s with
  | nil => exact h
  | cons r rs ih => exact ih (h.recordResult now)

lemma handOut (h : Parted d rest s) (k : ℕ) : Parted d rest (handOut k s) := by
  refine .trans ?_ h
  refine .append_right _ (.append_right _ ?_)
  calc s.queued.drop k ++ (s.pending ++ s.queued.take k)
      _ |>.Perm (s.queued.drop k ++ (s.queued.take k ++ s.pending)) :=
        .append_left _ List.perm_append_comm
      _ |>.Perm (s.queued.take k ++ s.queued.drop k ++ s.pending) := by
        rw [← List.append_assoc]
        exact .append_right _ List.perm_append_comm
      _ |>.Perm (s.queued ++ s.pending) := by rw [List.take_append_drop]

/-- What is given up is still to be recorded. -/
lemma giveUp (h : Parted d [] s) (r : Round) : Parted d (givenUp r s) (giveUp r s) := by
  unfold Deploy.giveUp givenUp
  cases hlate : r.stop && r.late with
  | false => exact h
  | true =>
    cases hpending : s.pending with
    | nil => simpa [hpending] using h
    | cons n ns => simpa [Parted, hpending, State.recorded] using h

/-- What is picked up is still to be recorded, beside what was given up. -/
lemma pickUp (h : Parted d rest s) :
    Parted d (rest ++ pickedUp s) { s with pending := stillRunning s } := by
  refine .trans ?_ h
  have hsplit : (stillRunning s ++ pickedUp s).Perm s.pending := by
    refine List.perm_append_comm.trans ?_
    have := List.filter_append_perm (fun n => (s.outcome n).isSome) s.pending
    simpa [pickedUp, stillRunning] using this
  refine .append_right _ ?_
  simp only [List.append_assoc]
  refine .append_left _ ?_
  refine (List.Perm.append_left _ List.perm_append_comm).trans ?_
  rw [← List.append_assoc]
  exact .append_right _ hsplit

end Parted

/-! ## The invariant -/

/-- Every name of the deployment is queued, pending, among `rest` or recorded, and in one of
these only; the events so far have settled the recorded ones, each by its last event. -/
structure Accounted (d : Deployment) (rest : List Text) (s : State) : Prop where
  names : (s.queued ++ s.pending ++ rest ++ s.recorded).Perm d.names
  waiting : ∀ n ∈ s.queued, n ∉ s.started
  settles : s.updates.filterMap Update.settles = s.recorded
  last : SettledLast s.updates

namespace Accounted

variable {d : Deployment} {rest : List Text} {s : State}

lemma parted (h : Accounted d rest s) : Parted d rest s := h.names

lemma perm {rest' : List Text} (h : Accounted d rest s) (hp : rest.Perm rest') :
    Accounted d rest' s :=
  { h with names := h.parted.perm hp }

/-- An event that settles nothing, about no container that has a result. -/
lemma emit (h : Accounted d rest s) {u : Update} (hset : u.settles = none)
    (hu : ∀ n ∈ s.recorded, u.container ≠ some n) : Accounted d rest (s.emit u) where
  names := h.names
  waiting := h.waiting
  settles := by
    rw [State.emit, List.filterMap_append, h.settles]
    simp [hset, State.recorded]
  last := h.last.concat fun n hn => hu n (h.settles ▸ hn)

/-- Recording the result of a name that is still to be recorded. -/
lemma recordResult {r : Result} (h : Accounted d (r.agentName :: rest) s) (now : Text) :
    Accounted d rest (recordResult now s r) := by
  have hsame := sameLoop_recordResult now s r
  obtain ⟨u, hupdates, hcontainer, hsettles⟩ := recordResult_updates now s r
  have hnew : r.agentName ∉ s.recorded := h.parted.not_recorded
  refine ⟨h.parted.recordResult now, ?_, ?_, ?_⟩
  · rw [hsame.queued, hsame.started]
    exact h.waiting
  · rw [hupdates, recordResult_recorded, List.filterMap_append, h.settles]
    simp [hsettles]
  · rw [hupdates]
    refine h.last.concat fun n hn hc => hnew ?_
    rw [hcontainer, Option.some.injEq] at hc
    rwa [hc, ← h.settles]

lemma recordAll {rs : List Result} (h : Accounted d (rs.map (·.agentName) ++ rest) s)
    (now : Text) : Accounted d rest (rs.foldl (Deploy.recordResult now) s) := by
  induction rs generalizing s with
  | nil => exact h
  | cons r rs ih => exact ih (h.recordResult now)

end Accounted

/-! ## One iteration -/

lemma accounted_start (d : Deployment) (store : Store) : Accounted d [] (start d store) where
  names := by simp [start, State.recorded]
  waiting := by simp [start]
  settles := rfl
  last := List.Pairwise.nil

lemma note_settles (message : Text) (level : Level) : (note message level).settles = none := by
  simp [note, Update.settles]

@[simp] lemma interruptedResult_agentName (d : Deployment) (started : Bool) (names : List Text) :
    (names.map fun n => interruptedResult n (d.seqId n) started).map (·.agentName) = names := by
  rw [List.map_map]
  exact List.map_id _

lemma sameLoop_noteStop (s : State) : SameLoop { s with stopNoted := true } (noteStop s) := by
  unfold noteStop
  cases hs : s.stopNoted
  · exact ⟨rfl, rfl, rfl, rfl, rfl, rfl⟩
  · exact ⟨rfl, rfl, rfl, rfl, hs, rfl⟩

/-- A stop is noted and empties the queue. -/
lemma cancelQueued_of_stop {d : Deployment} {r : Round} {s : State} (h : r.stop = true) :
    SameLoop { s with queued := [], stopNoted := true } (cancelQueued d r s) := by
  have hnote := sameLoop_noteStop s
  have hcancel : SameLoop { s with queued := [], stopNoted := true }
      { noteStop s with queued := [] } :=
    ⟨rfl, hnote.pending, hnote.started, hnote.outcome, hnote.stopNoted, hnote.raised⟩
  rw [cancelQueued, if_pos h]
  exact hcancel.trans (sameLoop_recordAll r.now _ _)

lemma cancelQueued_of_not_stop {d : Deployment} {r : Round} {s : State} (h : r.stop = false) :
    cancelQueued d r s = s := by
  rw [cancelQueued, h]
  rfl

/-- What is cancelled goes from the queue to the results. -/
lemma Parted.cancelQueued {d : Deployment} {s : State} (h : Parted d [] s) (r : Round) :
    Parted d [] (cancelQueued d r s) := by
  cases hstop : r.stop with
  | false => rwa [cancelQueued_of_not_stop hstop]
  | true =>
    have hnote := sameLoop_noteStop s
    have hrecorded : (noteStop s).recorded = s.recorded := by
      unfold noteStop
      cases s.stopNoted <;> rfl
    rw [Deploy.cancelQueued, if_pos hstop]
    refine Parted.recordAll (?_ : Parted d (_ ++ []) _) r.now
    rw [interruptedResult_agentName]
    refine .trans ?_ h
    rw [List.append_nil, List.append_nil, ← hrecorded]
    simp only [List.nil_append, hnote.pending]
    exact List.perm_append_comm.append_right _

namespace Accounted

variable {d : Deployment} {rest : List Text} {s : State}

lemma noteStop (h : Accounted d rest s) : Accounted d rest (noteStop s) := by
  unfold Deploy.noteStop
  cases s.stopNoted with
  | true => exact h
  | false =>
    have := h.emit (note_settles stopMessage .error) (fun n _ => by simp [note])
    exact ⟨this.names, this.waiting, this.settles, this.last⟩

lemma cancelQueued (h : Accounted d [] s) (r : Round) : Accounted d [] (cancelQueued d r s) := by
  cases hstop : r.stop with
  | false => rwa [cancelQueued_of_not_stop hstop]
  | true =>
    have hnote := sameLoop_noteStop s
    rw [Deploy.cancelQueued, if_pos hstop]
    refine Accounted.recordAll (?_ : Accounted d (_ ++ []) _) r.now
    rw [interruptedResult_agentName]
    refine ⟨.trans ?_ h.noteStop.names, by simp, h.noteStop.settles, h.noteStop.last⟩
    simp only [List.nil_append, List.append_nil, hnote.queued, List.append_assoc]
    exact List.perm_append_comm_assoc _ _ _

/-- What is given up is still to be recorded. -/
lemma giveUp (h : Accounted d [] s) (r : Round) : Accounted d (givenUp r s) (giveUp r s) := by
  refine ⟨h.parted.giveUp r, ?_, ?_, ?_⟩ <;> unfold Deploy.giveUp
  · split <;> exact h.waiting
  · split <;> exact h.settles
  · split <;> exact h.last

lemma handOut (h : Accounted d rest s) (k : ℕ) : Accounted d rest (handOut k s) where
  names := h.parted.handOut k
  waiting := by
    intro n hn hstarted
    have hq := h.parted.nodup
    simp only [Deploy.handOut, List.mem_append] at hn hstarted
    rcases hstarted with hold | htaken
    · exact h.waiting n (List.mem_of_mem_drop hn) hold
    · have hnodup : s.queued.Nodup := by
        simp only [List.append_assoc] at hq
        exact (List.nodup_append.mp hq).1
      exact List.disjoint_take_drop hnodup le_rfl htaken hn
  settles := h.settles
  last := h.last

lemma completeAll (h : Accounted d rest s) (completes : List (Text × Outcome)) :
    Accounted d rest (completeAll completes s) :=
  ⟨h.names, h.waiting, h.settles, h.last⟩

/-- What is picked up is still to be recorded, beside what was given up. -/
lemma pickUp (h : Accounted d rest s) :
    Accounted d (rest ++ pickedUp s) { s with pending := stillRunning s } where
  names := h.parted.pickUp
  waiting := h.waiting
  settles := h.settles
  last := h.last

lemma drain (h : Accounted d rest s) {messages : List (Text × Text)}
    (hm : ∀ m ∈ messages, m.1 ∉ s.recorded) : Accounted d rest (drain messages s) := by
  induction messages using List.reverseRecOn with
  | nil => simpa [Deploy.drain] using h
  | append_singleton ms m ih =>
    have := (ih fun m' hm' => hm m' (by simp [hm'])).emit (u := runningUpdate m.1 m.2) rfl
      (fun n hn hc => hm m (by simp) (by
        simp only [runningUpdate, Option.some.injEq] at hc
        exact hc ▸ hn))
    simpa [Deploy.drain, State.emit] using this

end Accounted

/-! ## One iteration, up to the futures -/

lemma cancelQueued_pending (d : Deployment) (r : Round) (s : State) :
    (cancelQueued d r s).pending = s.pending := by
  cases h : r.stop with
  | true => exact (cancelQueued_of_stop h).pending
  | false => rw [cancelQueued_of_not_stop h]

lemma recordAll_recorded (now : Text) (s : State) (rs : List Result) :
    (rs.foldl (recordResult now) s).recorded = s.recorded ++ rs.map (·.agentName) := by
  induction rs generalizing s with
  | nil => simp
  | cons r rs ih => simp [List.foldl_cons, ih, recordResult_recorded]

lemma giveUp_frame (r : Round) (s : State) : (giveUp r s).queued = s.queued ∧
    (giveUp r s).started = s.started ∧ (giveUp r s).recorded = s.recorded ∧
    (giveUp r s).stopNoted = s.stopNoted ∧ (giveUp r s).raised = s.raised := by
  unfold giveUp
  split <;> exact ⟨rfl, rfl, rfl, rfl, rfl⟩

/-- With a stop nothing is handed out: what was queued is cancelled, what runs goes on up to
the deadline. -/
lemma advance_of_stop {d : Deployment} {s : State} {r : Round} (h : r.stop = true) :
    (advance d s r).queued = [] ∧ (advance d s r).started = s.started ∧
      (advance d s r).pending = (if r.late then [] else s.pending) ∧
      (advance d s r).recorded = s.recorded ++ s.queued ∧
      (advance d s r).stopNoted = true := by
  have hsame := cancelQueued_of_stop (d := d) (s := s) h
  obtain ⟨hqueued, hstarted, hrecorded, hnoted, -⟩ := giveUp_frame r (cancelQueued d r s)
  have hempty : (giveUp r (cancelQueued d r s)).queued = [] := hqueued.trans hsame.queued
  have hcancel : (cancelQueued d r s).recorded = s.recorded ++ s.queued := by
    rw [cancelQueued, if_pos h, recordAll_recorded, interruptedResult_agentName, noteStop]
    cases s.stopNoted <;> rfl
  refine ⟨?_, ?_, ?_, hrecorded.trans hcancel, hnoted.trans hsame.stopNoted⟩
  · simp [advance, completeAll, handOut, hempty]
  · simp [advance, completeAll, handOut, hempty, hstarted, hsame.started]
  · have hpending : (giveUp r (cancelQueued d r s)).pending
        = if r.late then [] else s.pending := by
      unfold giveUp
      cases r.late <;> cases hp : s.pending <;> simp [h, hp, hsame.pending]
    simp [advance, completeAll, handOut, hempty, hpending]

lemma advance_of_not_stop {d : Deployment} {s : State} {r : Round} (h : r.stop = false) :
    advance d s r = completeAll r.completes (handOut (free d s) s) := by
  simp [advance, cancelQueued_of_not_stop h, giveUp, h]

lemma Parted.advance {d : Deployment} {s : State} (h : Parted d [] s) (r : Round) :
    Parted d (givenUp r s) (advance d s r) := by
  have hgiven : givenUp r (Deploy.cancelQueued d r s) = givenUp r s := by
    rw [givenUp, givenUp, cancelQueued_pending]
  rw [← hgiven]
  exact ((h.cancelQueued r).giveUp r).handOut _

lemma Accounted.advance {d : Deployment} {s : State} (h : Accounted d [] s) (r : Round) :
    Accounted d (givenUp r s) (advance d s r) := by
  have hgiven : givenUp r (Deploy.cancelQueued d r s) = givenUp r s := by
    rw [givenUp, givenUp, cancelQueued_pending]
  rw [← hgiven]
  exact (((h.cancelQueued r).giveUp r).handOut _).completeAll _

/-! ## One iteration, from the futures on -/

lemma resultOf_agentName (d : Deployment) (s : State) (name : Text) :
    (resultOf d s name).agentName = name := by
  unfold resultOf
  split <;> rfl

lemma sameLoop_conclude (d : Deployment) (s : State) (r : Round) :
    SameLoop { s with pending := stillRunning s } (conclude d s r) := by
  have hdrain : SameLoop { s with pending := stillRunning s }
      (drain r.messages { s with pending := stillRunning s }) := ⟨rfl, rfl, rfl, rfl, rfl, rfl⟩
  exact hdrain.trans (sameLoop_recordAll r.now _ _)

lemma resultOf_agentNames (d : Deployment) (s : State) (names : List Text) :
    (names.map (resultOf d s)).map (·.agentName) = names := by
  rw [List.map_map]
  exact (List.map_congr_left fun n _ => resultOf_agentName d s n).trans (List.map_id _)

lemma Parted.conclude {d : Deployment} {left : List Text} {s : State} {r : Round}
    (h : Parted d left s) (horder : r.order.Perm (left ++ pickedUp s)) :
    Parted d [] (conclude d s r) := by
  refine Parted.recordAll (?_ : Parted d (_ ++ []) _) r.now
  rw [resultOf_agentNames, List.append_nil]
  exact h.pickUp.perm horder.symm

lemma Accounted.conclude {d : Deployment} {left : List Text} {s : State} {r : Round}
    (h : Accounted d left s) (horder : r.order.Perm (left ++ pickedUp s))
    (hm : ∀ m ∈ r.messages, m.1 ∉ s.recorded) : Accounted d [] (conclude d s r) := by
  refine Accounted.recordAll (?_ : Accounted d (_ ++ []) _) r.now
  rw [resultOf_agentNames, List.append_nil]
  exact (h.pickUp.drain hm).perm horder.symm

/-- Nothing goes wrong in an iteration: no name is handed to a broken pool, and no step message
is of a container that already has its result. -/
def Sound (d : Deployment) (s : State) (r : Round) : Prop :=
  refused d s r = false ∧ ∀ m ∈ r.messages, m.1 ∉ s.recorded

/-- **One iteration keeps the account.** -/
lemma Accounted.round {d : Deployment} {s s' : State} {r : Round} (h : Accounted d [] s)
    (hsound : Sound d s r) (hround : round d s r = some s') : Accounted d [] s' := by
  obtain ⟨-, -, -, ⟨hrefused, -⟩ | ⟨-, ⟨-, hstarted, horder⟩, rfl⟩⟩ := round_cases hround
  · exact absurd hrefused (by simp [hsound.1])
  · refine (h.advance r).conclude horder fun m hm hrec => ?_
    cases hstop : r.stop with
    | true =>
      obtain ⟨-, hold, -, hrecorded, -⟩ := advance_of_stop (d := d) (s := s) hstop
      rw [hrecorded, List.mem_append] at hrec
      rcases hrec with hrec | hqueued
      · exact hsound.2 m hm hrec
      · -- what was cancelled has never been started
        exact h.waiting _ hqueued (hold ▸ hstarted m hm)
    | false =>
      rw [advance_of_not_stop hstop] at hrec
      exact hsound.2 m hm hrec

/-- An iteration that sees a stop notes it and starts nothing. -/
lemma round_of_stop {d : Deployment} {s s' : State} {r : Round} (hround : round d s r = some s')
    (hstop : r.stop = true) : s'.stopNoted = true ∧ s'.started = s.started := by
  obtain ⟨-, -, -, ⟨hrefused, -⟩ | ⟨-, -, rfl⟩⟩ := round_cases hround
  · exact absurd hrefused (by simp [refused, hstop])
  · obtain ⟨-, hold, -, -, hnoted⟩ := advance_of_stop (d := d) (s := s) hstop
    have hsame := sameLoop_conclude d (Deploy.advance d s r) r
    exact ⟨hsame.stopNoted.trans hnoted, hsame.started.trans hold⟩

/-- After an iteration no pending future has completed. -/
lemma outcome_of_mem_conclude {d : Deployment} {s : State} {r : Round} {n : Text}
    (h : n ∈ (conclude d s r).pending) : (conclude d s r).outcome n = none := by
  have hsame := sameLoop_conclude d s r
  rw [hsame.pending, stillRunning, List.mem_filter, Option.isNone_iff_eq_none] at h
  rw [hsame.outcome]
  exact h.2

end Habeny.Deploy
