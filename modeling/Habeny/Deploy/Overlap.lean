import Habeny.Deploy.Request

/-!
# Names of a deploy request that already belong to containers

A deploy request records only new names as its user's, but it writes a row for every name of
its list, and later the metadata of every result.  For a name that already belongs to a
container this overwrites the container's row.  The row survives exactly if it holds all the
values already.
-/

namespace Habeny.Deploy

open Habeny.Lib Habeny.Auth Habeny.Tenancy Habeny.Agents

/-! ## What is written last -/

/-- The values that the results of a name save, the later ones first. -/
def savedFields (results : List (Text × Result)) (name : Text) : Column → Option Value :=
  match results with
  | [] => fun _ => none
  | p :: rest => fun c => (savedFields rest name c).or
      (if p.2.agentName = name then p.2.metadata.bind (·.field c) else none)

/-- The values that a request leaves in the row of a name: those of its results, and where they
say nothing the ones written before the workers run. -/
def lastWritten (settings : Settings) (results : List (Text × Result)) (name : Text) :
    Column → Option Value := fun c => (savedFields results name c).or (startingFields settings c)

/-! ## Before the workers -/

lemma announce_owners (settings : Settings) (now : Text) (store : Store) (name : Text) :
    (announce settings now store name).owners = store.owners := by
  rw [announce, writeAgentMetadata_owners, getOrCreateAgentSeqId_owners]

lemma announce_rows_of_ne {settings : Settings} {now : Text} {store : Store} {name other : Text}
    (h : other ≠ name) : (announce settings now store name).rows other = store.rows other := by
  rw [announce, writeAgentMetadata_rows_of_ne h, getOrCreateAgentSeqId_rows_of_ne h]

lemma announce_rows_self {settings : Settings} {now : Text} {store : Store} {name : Text}
    {row : Row} (h : store.rows name = some row) :
    (announce settings now store name).rows name
      = some (row.overwrite (startingFields settings)) := by
  rw [announce, getOrCreateAgentSeqId_of_some h]
  exact writeAgentMetadata_rows_self h rfl now

/-- A name that is announced has a row from then on. -/
lemma announce_isSome (settings : Settings) (now : Text) (store : Store) (name : Text) :
    ((announce settings now store name).rows name).isSome = true := by
  obtain ⟨row, hrow⟩ := Option.isSome_iff_exists.mp (getOrCreateAgentSeqId_isSome store name now)
  rw [announce, writeAgentMetadata_rows_self hrow rfl]
  rfl

lemma announceAll_owners (settings : Settings) (now : Text) (names : List Text) (store : Store) :
    (names.foldl (announce settings now) store).owners = store.owners := by
  induction names generalizing store with
  | nil => rfl
  | cons n ns ih => rw [List.foldl_cons, ih, announce_owners]

lemma announceAll_rows_of_notMem {settings : Settings} {now name : Text} {names : List Text}
    (h : name ∉ names) (store : Store) :
    (names.foldl (announce settings now) store).rows name = store.rows name := by
  induction names generalizing store with
  | nil => rfl
  | cons n ns ih =>
    rw [List.mem_cons, not_or] at h
    rw [List.foldl_cons, ih h.2, announce_rows_of_ne h.1]

lemma announceAll_rows_of_mem {settings : Settings} {now name : Text} {names : List Text}
    (hnodup : names.Nodup) (h : name ∈ names) {store : Store} {row : Row}
    (hrow : store.rows name = some row) :
    (names.foldl (announce settings now) store).rows name
      = some (row.overwrite (startingFields settings)) := by
  induction names generalizing store with
  | nil => exact absurd h (by simp)
  | cons n ns ih =>
    rw [List.nodup_cons] at hnodup
    rw [List.foldl_cons]
    rcases List.mem_cons.mp h with rfl | hmem
    · rw [announceAll_rows_of_notMem hnodup.1, announce_rows_self hrow]
    · have hne : name ≠ n := fun he => hnodup.1 (he ▸ hmem)
      exact ih hnodup.2 hmem ((announce_rows_of_ne hne).trans hrow)

lemma announceAll_isSome {settings : Settings} {now name : Text} {names : List Text}
    (hnodup : names.Nodup) (h : name ∈ names) (store : Store) :
    ((names.foldl (announce settings now) store).rows name).isSome = true := by
  induction names generalizing store with
  | nil => exact absurd h (by simp)
  | cons n ns ih =>
    rw [List.nodup_cons] at hnodup
    rw [List.foldl_cons]
    rcases List.mem_cons.mp h with rfl | hmem
    · rw [announceAll_rows_of_notMem hnodup.1]
      exact announce_isSome settings now store _
    · exact ih hnodup.2 hmem _

/-! ## After the workers -/

lemma save_owners (store : Store) (p : Text × Result) : (save store p).owners = store.owners := by
  unfold save persistDeployResult
  split
  · rfl
  · rw [writeAgentMetadata_owners]

lemma save_rows_of_ne {store : Store} {p : Text × Result} {name : Text}
    (h : name ≠ p.2.agentName) : (save store p).rows name = store.rows name := by
  unfold save persistDeployResult
  split
  · rfl
  · rw [writeAgentMetadata_rows_of_ne h]

lemma save_rows_self {store : Store} {p : Text × Result} {row : Row}
    (h : store.rows p.2.agentName = some row) :
    (save store p).rows p.2.agentName
      = some (row.overwrite fun c => p.2.metadata.bind (·.field c)) := by
  unfold save persistDeployResult
  cases hm : p.2.metadata with
  | none => simpa [Row.overwrite] using h
  | some m => exact writeAgentMetadata_rows_self h (p.2.unnumbered m hm) p.1

lemma saveAll_owners (results : List (Text × Result)) (store : Store) :
    (results.foldl save store).owners = store.owners := by
  induction results generalizing store with
  | nil => rfl
  | cons p ps ih => rw [List.foldl_cons, ih, save_owners]

/-- **Saving results overwrites a row with what they say last.** -/
lemma saveAll_rows {results : List (Text × Result)} {store : Store} {name : Text} {row : Row}
    (h : store.rows name = some row) :
    (results.foldl save store).rows name = some (row.overwrite (savedFields results name)) := by
  induction results generalizing store row with
  | nil => simpa [savedFields, Row.overwrite] using h
  | cons p ps ih =>
    rw [List.foldl_cons]
    by_cases hp : p.2.agentName = name
    · subst hp
      rw [ih (save_rows_self h), Row.overwrite_overwrite]
      simp only [savedFields, if_true]
    · have hne : name ≠ p.2.agentName := fun he => hp he.symm
      rw [ih ((save_rows_of_ne hne).trans h)]
      simp only [savedFields, if_neg hp, Option.or_none]

lemma saveAll_rows_of_notMem {results : List (Text × Result)} {name : Text}
    (h : ∀ p ∈ results, p.2.agentName ≠ name) (store : Store) :
    (results.foldl save store).rows name = store.rows name := by
  induction results generalizing store with
  | nil => rfl
  | cons p ps ih =>
    rw [List.foldl_cons, ih (fun q hq => h q (List.mem_cons_of_mem _ hq)),
      save_rows_of_ne (h p List.mem_cons_self).symm]

/-! ## The loop and its outcomes -/

/-- What the loop of a request deploys. -/
def Request.deployment (req : Request) (env : Env) (seqId : Text → ℤ) : Deployment :=
  { names := req.names, nodup := nodup_containerNames _ _, mode := req.parallelMode,
    deployWorkers := env.deployWorkers, deployWorkers_pos := env.deployWorkers_pos,
    seqId := seqId }

/-- The state of a loop that began with `store`: its store is that store with some results
saved, those recorded so far, and all names in it are names of the deployment. -/
structure Saved (d : Deployment) (store : Store) (s : State) : Prop where
  results : ∃ results : List (Text × Result),
    results.map (·.2.agentName) = s.recorded ∧ s.store = results.foldl save store
  queued : s.queued ⊆ d.names
  pending : s.pending ⊆ d.names
  recorded : s.recorded ⊆ d.names

namespace Saved

variable {d : Deployment} {store : Store} {s : State}

lemma recordResult (h : Saved d store s) {r : Result} (hr : r.agentName ∈ d.names) (now : Text) :
    Saved d store (recordResult now s r) := by
  have hsame := sameLoop_recordResult now s r
  obtain ⟨results, hnames, hstore⟩ := h.results
  refine ⟨⟨results ++ [(now, r)], ?_, ?_⟩, ?_, ?_, ?_⟩
  · rw [recordResult_recorded, List.map_append, hnames]
    rfl
  · rw [List.foldl_append, ← hstore, Deploy.recordResult]
    cases r.success <;> rfl
  · rw [hsame.queued]
    exact h.queued
  · rw [hsame.pending]
    exact h.pending
  · rw [recordResult_recorded]
    exact List.append_subset.mpr ⟨h.recorded, by simpa using hr⟩

lemma recordAll (h : Saved d store s) {rs : List Result} (hrs : ∀ r ∈ rs, r.agentName ∈ d.names)
    (now : Text) : Saved d store (rs.foldl (Deploy.recordResult now) s) := by
  induction rs generalizing s with
  | nil => exact h
  | cons r rs ih =>
    exact ih (h.recordResult (hrs r List.mem_cons_self) now)
      fun r' hr' => hrs r' (List.mem_cons_of_mem _ hr')

lemma cancelQueued (h : Saved d store s) (r : Round) : Saved d store (cancelQueued d r s) := by
  have hnote : Saved d store { noteStop s with queued := [] } := by
    unfold noteStop
    cases s.stopNoted <;> exact ⟨h.results, by simp, h.pending, h.recorded⟩
  unfold Deploy.cancelQueued
  split
  · refine hnote.recordAll (fun r' hr' => ?_) r.now
    obtain ⟨n, hn, rfl⟩ := List.mem_map.mp hr'
    exact h.queued hn
  · exact h

lemma giveUp (h : Saved d store s) (r : Round) : Saved d store (giveUp r s) := by
  unfold Deploy.giveUp
  split
  · exact ⟨h.results, h.queued, by simp, h.recorded⟩
  · exact h

lemma handOut (h : Saved d store s) (k : ℕ) : Saved d store (handOut k s) where
  results := h.results
  queued := fun _ hn => h.queued (List.mem_of_mem_drop hn)
  pending := List.append_subset.mpr ⟨h.pending, fun _ hn => h.queued (List.mem_of_mem_take hn)⟩
  recorded := h.recorded

lemma advance (h : Saved d store s) (r : Round) : Saved d store (advance d s r) :=
  let h' := ((h.cancelQueued r).giveUp r).handOut _
  ⟨h'.results, h'.queued, h'.pending, h'.recorded⟩

lemma round {s' : State} {r : Round} (h : Saved d store s) (hround : round d s r = some s') :
    Saved d store s' := by
  obtain ⟨-, -, -, ⟨-, rfl⟩ | ⟨-, ⟨-, -, horder⟩, rfl⟩⟩ := round_cases hround
  · have h' := h.handOut (r.accepts.getD 0)
    exact ⟨h'.results, fun _ hn => h.queued (List.mem_of_mem_drop hn), h'.pending, h'.recorded⟩
  · have h' := h.advance r
    have hdrain : Saved d store
        (drain r.messages { Deploy.advance d s r with pending := stillRunning (Deploy.advance d s r) }) :=
      ⟨h'.results, h'.queued, fun _ hn => h'.pending (List.mem_of_mem_filter hn), h'.recorded⟩
    refine hdrain.recordAll (fun res hres => ?_) r.now
    obtain ⟨n, hn, rfl⟩ := List.mem_map.mp hres
    rw [resultOf_agentName]
    rcases List.mem_append.mp (horder.subset hn) with hleft | hpicked
    · unfold givenUp at hleft
      split at hleft
      · exact h.pending hleft
      · exact absurd hleft (by simp)
    · exact h'.pending (List.mem_of_mem_filter hpicked)

end Saved

/-- **Wherever the loop of a request ends, its store is what some outcomes of its workers leave
to be saved.** -/
lemma outcomes_of_run {req : Request} {env : Env} {seqId : Text → ℤ} {store : Store}
    {rs : List Round} {s : State}
    (hrun : Run (round (req.deployment env seqId)) anyStep
      (start (req.deployment env seqId) store) rs s) :
    ∃ outcomes : Outcomes req, outcomes.results.map (·.2.agentName) = s.recorded ∧
      s.store = outcomes.results.foldl save store := by
  have hsaved : Saved (req.deployment env seqId) store s :=
    hrun.invariant (P := Saved (req.deployment env seqId) store)
      (fun h _ hround => h.round hround)
      ⟨⟨[], rfl, rfl⟩, fun _ hn => hn, by simp [start], by simp [start, State.recorded]⟩
  obtain ⟨results, hnames, hstore⟩ := hsaved.results
  refine ⟨⟨results, fun p hp => hsaved.recorded ?_⟩, hnames, hstore⟩
  rw [← hnames]
  exact List.mem_map_of_mem hp

/-! ## The whole request -/

/-- The checks let a request pass, with these settings. -/
structure Accepted (env : Env) (user : Option User) (req : Request) (store : Store)
    (settings : Settings) : Prop where
  settled : settle env req = .ok settings
  group : ∃ store', ensureGroup store settings req = .ok store'
  withinLimits : checkNew env store.owners user req = .ok ()

lemma ensureGroup_frame {store store' : Store} {settings : Settings} {req : Request}
    (h : ensureGroup store settings req = .ok store') :
    store'.rows = store.rows ∧ store'.owners = store.owners := by
  unfold ensureGroup at h
  split at h
  · split at h
    · split at h
      · rw [← Except.ok.inj h]
        exact ⟨rfl, rfl⟩
      · exact absurd h (by simp)
    · rw [← Except.ok.inj h]
      exact ⟨rfl, rfl⟩
  · rw [← Except.ok.inj h]
    exact ⟨rfl, rfl⟩

/-- What a request does to the store: nothing to rows and owners if it is refused, and
otherwise its writes. -/
lemma deployAgents_cases (env : Env) (user : Option User) (req : Request)
    (outcomes : Outcomes req) (store : Store) :
    ((∀ settings, ¬ Accepted env user req store settings) ∧
      (deployAgents env user req outcomes store).2.rows = store.rows ∧
      (deployAgents env user req outcomes store).2.owners = store.owners) ∨
    ∃ settings store', Accepted env user req store settings ∧ store'.rows = store.rows ∧
      store'.owners = store.owners ∧ (deployAgents env user req outcomes store).2
        = outcomes.results.foldl save (prepare env user req settings store') := by
  unfold deployAgents
  cases hsettle : settle env req with
  | error e =>
    exact .inl ⟨fun settings h => absurd (hsettle.symm.trans h.settled) (by simp), rfl, rfl⟩
  | ok settings =>
    dsimp only
    cases hgroup : ensureGroup store settings req with
    | error e =>
      refine .inl ⟨fun settings' h => ?_, rfl, rfl⟩
      obtain rfl : settings = settings' := Except.ok.inj (hsettle.symm.trans h.settled)
      obtain ⟨store', hok⟩ := h.group
      exact absurd (hgroup.symm.trans hok) (by simp)
    | ok store' =>
      obtain ⟨hrows, howners⟩ := ensureGroup_frame hgroup
      dsimp only
      cases hnew : checkNew env store'.owners user req with
      | error e =>
        refine .inl ⟨fun settings' h => ?_, hrows, howners⟩
        rw [howners] at hnew
        exact absurd (hnew.symm.trans h.withinLimits) (by simp)
      | ok u =>
        rw [howners] at hnew
        exact .inr ⟨settings, store', ⟨hsettle, ⟨store', hgroup⟩, hnew⟩, hrows, howners, rfl⟩

lemma Accepted.settings_eq {env : Env} {user : Option User} {req : Request} {store : Store}
    {settings settings' : Settings} (h : Accepted env user req store settings)
    (h' : Accepted env user req store settings') : settings = settings' :=
  Except.ok.inj (h.settled.symm.trans h'.settled)

section Prepared

variable {env : Env} {user : Option User} {req : Request} {settings : Settings} {store : Store}
  {n : Text}

/-- The owner of a container that exists stays. -/
lemma prepare_owners (h : n ∈ env.containers) :
    (prepare env user req settings store).owners n = store.owners n := by
  rw [prepare, announceAll_owners]
  exact record_of_notMem (by simp [newNames, h])

lemma prepare_rows_of_mem (hn : n ∈ req.names) {row : Row} (hrow : store.rows n = some row) :
    (prepare env user req settings store).rows n
      = some (row.overwrite (startingFields settings)) :=
  announceAll_rows_of_mem (nodup_containerNames _ _) hn hrow

lemma prepare_rows_of_notMem (hn : n ∉ req.names) :
    (prepare env user req settings store).rows n = store.rows n :=
  announceAll_rows_of_notMem hn _

lemma prepare_isSome (hn : n ∈ req.names) :
    ((prepare env user req settings store).rows n).isSome = true :=
  announceAll_isSome (nodup_containerNames _ _) hn _

/-- The row of a name after the request. -/
lemma rows_of_name (hn : n ∈ req.names) {row : Row} (hrow : store.rows n = some row)
    (results : List (Text × Result)) :
    (results.foldl save (prepare env user req settings store)).rows n
      = some (row.overwrite (lastWritten settings results n)) := by
  rw [saveAll_rows (prepare_rows_of_mem hn hrow), Row.overwrite_overwrite]
  rfl

end Prepared

/-- The result of a worker that finds its container exists. -/
def existsResult (name : Text) (seqId : ℤ) : Result :=
  { agentName := name, success := false, error := some "Container already exists".toList,
    installMessage := none, deployTime := none, ipAddress := none,
    metadata := some
      { seqId := none, agentSeqId := some (some seqId),
        field := fun
          | .lifecycleStatus => some (.text "error".toList)
          | .state => some (.text "EXISTS".toList)
          | _ => none },
    unnumbered := by simp }

/-- A container of the production group that runs. -/
def webStore : Store :=
  { rows := fun n => if n = "web-0001".toList then
      some ⟨7, fun
        | .agentGroup => .text "production".toList
        | .lifecycleStatus => .text "running".toList
        | .state => .text "RUNNING".toList
        | _ => .null⟩ else none,
    nextSeqId := 8, owners := fun _ => none,
    groups := fun g => decide (g = "default".toList ∨ g = "production".toList) }

/-- A server without licensing and limits, on which that container exists. -/
def webEnv : Env :=
  { license := ⟨false, [], none, none, 0⟩, limits := ⟨fun _ => none, fun _ => none⟩,
    managers := fun _ => none, containers := ["web-0001".toList], deployWorkers := 1,
    deployWorkers_pos := Nat.one_pos, now := [] }

/-- Somebody deploys one bare container under the same base name, into the default group. -/
def webRequest : Request :=
  { count := 1, managerProfileId := none, agentBaseName := "web".toList,
    settings := fun
      | .siemType => some "none".toList
      | .agentGroup => some "default".toList
      | .osType => some "ubuntu_22_04".toList
      | _ => none,
    parallelMode := .multiprocessing, autoCreateGroup := true }

/-- The worker finds that the container exists. -/
def webOutcomes : Outcomes webRequest :=
  ⟨[([], existsResult "web-0001".toList 7)], by decide +kernel⟩

end Habeny.Deploy
