import Habeny.Agents.Groups
import Habeny.Deploy.Overlap

/-!
# Group membership over time

Containers are deployed into groups, deleted and deployed again, put into groups and taken out
of them, while groups are created, renamed and deleted.  Beside the database runs the list that
somebody would keep who only watches the operations: which containers exist, and the group that
the last operation on each of them put it into (`Members`).

The two agree as long as no deployment concerns a name that was deleted before, none names a
container that exists and is elsewhere, none fails before its container exists, and a request to
remove containers from a group names none of another group (`Orderly`).
-/

namespace Habeny.Agents

open Habeny.Lib Habeny.Auth Habeny.Tenancy Habeny.Deploy

/-! ## Deploying one container -/

/-- What the worker reports of a container that came up. -/
structure Installed where
  lifecycleStatus : Text
  state : Text
  initPid : Value
  ipAddresses : List Text

/-- What happens to a container that is deployed.  A worker that raises, or that a stop of the
server interrupts, may have created the container by then. -/
inductive Course where
  | createFailed
  | startFailed
  | unsupported
  | installed (report : Installed)
  | raised (created : Bool)
  | cancelled
  | interrupted (created : Bool)

/-- Whether there is a container after it. -/
def Course.creates : Course → Bool
  | .installed _ => true
  | .raised created | .interrupted created => created
  | .createFailed | .startFailed | .unsupported | .cancelled => false

/-- What is saved of a container that did not come up. -/
def failedMetadata (seqId : ℤ) (state : Text) : Metadata :=
  { seqId := none, agentSeqId := some (some seqId),
    field := fun
      | .lifecycleStatus => some (.text "error".toList)
      | .state => some (.text state)
      | _ => none }

/-- What is saved of one that did. -/
def installedMetadata (settings : Settings) (seqId : ℤ) (report : Installed) : Metadata :=
  { seqId := none, agentSeqId := some (some seqId),
    field := fun
      | .lifecycleStatus => some (.text report.lifecycleStatus)
      | .state => some (.text report.state)
      | .initPid => some report.initPid
      | .ipAddresses => some (.list report.ipAddresses)
      | c => startingFields settings c }

/-- What is saved after a deployment: the worker looks first whether the name is taken. -/
def Course.metadata (settings : Settings) (seqId : ℤ) (taken : Bool) : Course → Option Metadata
  | .cancelled => some (interruptedMetadata seqId false)
  | .interrupted _ => some (interruptedMetadata seqId true)
  | .createFailed =>
    some (failedMetadata seqId (if taken then "EXISTS" else "CREATE_FAILED").toList)
  | .startFailed => some (failedMetadata seqId (if taken then "EXISTS" else "START_FAILED").toList)
  | .unsupported => some (failedMetadata seqId (if taken then "EXISTS" else "UNSUPPORTED").toList)
  | .installed report =>
    some (if taken then failedMetadata seqId "EXISTS".toList
      else installedMetadata settings seqId report)
  | .raised _ => if taken then some (failedMetadata seqId "EXISTS".toList) else none

/-! ## The operations -/

/-- The database and the containers that LXC has. -/
structure Fleet where
  store : Store
  containers : List Text

/-- An operation, with its time. -/
inductive GroupAction where
  | create (group : Text)
  | deploy (settings : Settings) (name : Text) (user : Option User) (autoCreate : Bool)
      (course : Course) (now : Text)
  | delete (user : Option User) (name : Text) (destroyed : Bool) (now : Text)
  | assign (user : Option User) (group : Text) (ids : List Text) (now : Text)
  | remove (user : Option User) (group : Text) (ids : List Text)
  | rename (old new : Text)
  | deleteGroup (group : Text)

namespace Fleet

/-- The group of a deployment exists, or is created with it. -/
def hasGroup (f : Fleet) (settings : Settings) (autoCreate : Bool) : Bool :=
  !given (settings .agentGroup) || f.store.groups ((settings .agentGroup).getD []) || autoCreate

/-- The store with the group of a deployment. -/
def withGroupOf (f : Fleet) (settings : Settings) : Store :=
  if given (settings .agentGroup) then createGroup f.store ((settings .agentGroup).getD [])
  else f.store

/-- Deploy one container: its row is written before the worker runs, and its result is saved
after that. -/
def deploy (f : Fleet) (settings : Settings) (name : Text) (user : Option User)
    (autoCreate : Bool) (course : Course) (now : Text) : Fleet :=
  if ¬f.hasGroup settings autoCreate then f
  else
    let taken := decide (name ∈ f.containers)
    let store := f.withGroupOf settings
    let store := { store with owners := record store.owners (if taken then [] else [name]) user }
    let seqId := (getOrCreateAgentSeqId store name now).2
    let store := announce settings now store name
    { store :=
        match course.metadata settings seqId taken with
        | none => store
        | some metadata => writeAgentMetadata store name metadata now
      containers :=
        if course.creates && !taken then f.containers ++ [name] else f.containers }

/-- Delete a container that the user can see; `destroyed` says whether LXC does it. -/
def delete (f : Fleet) (user : Option User) (name : Text) (destroyed : Bool) (now : Text) : Fleet :=
  if name ∈ f.containers ∧ canSee f.store.owners user name = true ∧ destroyed = true then
    let store := markAgentDeleted f.store name now
    { store := { store with owners := forget store.owners [name] }
      containers := f.containers.filter fun n => decide (n ≠ name) }
  else f

/-- The containers among some ids that exist and that the user can see. -/
def validIds (f : Fleet) (user : Option User) (ids : List Text) : List Text :=
  ids.filter fun n => decide (n ∈ visible f.store.owners user f.containers)

/-- Assign containers to a group; those without a row get one. -/
def assign (f : Fleet) (user : Option User) (group : Text) (ids : List Text) (now : Text) : Fleet :=
  if f.store.groups group then
    let ids := f.validIds user ids
    let store := ids.foldl (fun s n => (getOrCreateAgentSeqId s n now).1) f.store
    { f with store := assignAgentsToGroup store group ids }
  else f

/-- Remove containers from a group. -/
def remove (f : Fleet) (user : Option User) (group : Text) (ids : List Text) : Fleet :=
  if f.store.groups group then
    { f with store := removeAgentsFromGroup f.store (visible f.store.owners user ids) }
  else f

/-- An operation; one that is refused changes nothing. -/
def act (f : Fleet) : GroupAction → Fleet
  | .create group =>
    if f.store.groups group then f else { f with store := createGroup f.store group }
  | .deploy settings name user autoCreate course now =>
    f.deploy settings name user autoCreate course now
  | .delete user name destroyed now => f.delete user name destroyed now
  | .assign user group ids now => f.assign user group ids now
  | .remove user group ids => f.remove user group ids
  | .rename old new =>
    match renameGroup f.store old new with
    | .error _ => f
    | .ok store => { f with store }
  | .deleteGroup group =>
    if f.store.groups group then { f with store := Agents.deleteGroup f.store group } else f

end Fleet

/-! ## The list of an observer -/

/-- For each container that exists, the group that the last operation put it into. -/
abbrev Members := Text → Option (Option Text)

namespace Members

/-- Some members change their group. -/
def regroup (m : Members) (cond : Text → Option Text → Bool) (group : Option Text) : Members :=
  fun n => (m n).map fun g => if cond n g then group else g

/-- What an operation means for the list, when it is not refused. -/
def after (f : Fleet) (m : Members) : GroupAction → Members
  | .create _ => m
  | .deploy settings name _ autoCreate course _ =>
    if f.hasGroup settings autoCreate = true ∧ name ∉ f.containers ∧ course.creates = true then
      Function.update m name (some (settings .agentGroup))
    else m
  | .delete user name destroyed _ =>
    if name ∈ f.containers ∧ canSee f.store.owners user name = true ∧ destroyed = true then
      Function.update m name none
    else m
  | .assign user group ids _ =>
    if f.store.groups group then
      m.regroup (fun n _ => decide (n ∈ f.validIds user ids)) (some group)
    else m
  | .remove user group ids =>
    if f.store.groups group then
      m.regroup (fun n g => decide (n ∈ visible f.store.owners user ids ∧ g = some group)) none
    else m
  | .rename old new =>
    if f.store.groups old = true ∧ f.store.groups new = false then
      m.regroup (fun _ g => decide (g = some old)) (some new)
    else m
  | .deleteGroup group =>
    if f.store.groups group then m.regroup (fun _ g => decide (g = some group)) none else m

end Members

/-- The fleet with the observer's list. -/
structure Watch where
  fleet : Fleet
  members : Members

namespace Watch

/-- A new database, on a host with some containers that no operation has put into a group. -/
def start (groups : Text → Bool) (owners : Owners) (containers : List Text) : Watch :=
  { fleet := { store := { rows := fun _ => none, nextSeqId := 1, owners, groups }, containers }
    members := fun n => if n ∈ containers then some none else none }

def step (w : Watch) (a : GroupAction) : Option Watch :=
  some { fleet := w.fleet.act a, members := w.members.after w.fleet a }

/-- The condition under which the database agrees with the list.  A deployment of a name that
exists is into the group that the container is in; one that creates its container is of a name
that was never deleted; one that creates none is into no group, or of a name that was deleted.
A request to remove containers from a group names none that is in another group. -/
def Orderly (w : Watch) : GroupAction → Prop
  | .deploy settings name _ autoCreate course _ =>
    w.fleet.hasGroup settings autoCreate = true →
      if name ∈ w.fleet.containers then
        ∀ group, settings .agentGroup = some group ↔ InGroup w.fleet.store group name
      else if course.creates then ∀ row ∈ w.fleet.store.rows name, row.isLive = true
      else settings .agentGroup = none ∨ ∃ row ∈ w.fleet.store.rows name, row.isLive = false
  | .remove user group ids =>
    w.fleet.store.groups group = true → ∀ n ∈ visible w.fleet.store.owners user ids, ∀ other,
      InGroup w.fleet.store other n → other = group
  | _ => True

end Watch

/-! ## A row and the list -/

/-- A container's row says what the list says.  A container without a row is in no group, and
the row of a container that does not exist shows none. -/
def Stands (row : Option Row) : Option (Option Text) → Prop
  | none => ∀ r ∈ row, r.isLive = true → ∀ group, r.field .agentGroup ≠ .text group
  | some group =>
    (row = none ∧ group = none) ∨
      ∃ r, row = some r ∧ r.isLive = true ∧ r.field .agentGroup = .ofText group

lemma Value.ofText_injective : Function.Injective Value.ofText := by
  intro a b h
  cases a <;> cases b <;> simp_all [Value.ofText]

lemma stands_iff {s : Store} {n : Text} {m : Option (Option Text)} (h : Stands (s.rows n) m)
    (group : Text) : InGroup s group n ↔ m = some (some group) := by
  cases m with
  | none =>
    simp only [reduceCtorEq, iff_false]
    rintro ⟨r, hr, hgroup, hlive⟩
    exact h r hr hlive group hgroup
  | some g =>
    rcases h with ⟨hnone, rfl⟩ | ⟨r, hr, hlive, hgroup⟩
    · simp [not_inGroup_of_none hnone]
    · rw [inGroup_iff hr, hgroup, Option.some.injEq]
      constructor
      · rintro ⟨hsame, -⟩
        exact Value.ofText_injective hsame
      · rintro rfl
        exact ⟨rfl, hlive⟩

/-- Some rows and some members get another group: the same ones, but for those that are in it
already. -/
lemma Stands.regroup {row : Option Row} {m : Option (Option Text)} (h : Stands row m)
    (c : Row → Bool) (c' : Option Text → Bool) (group : Option Text)
    (hsame : ∀ r, row = some r → ∀ g, m = some g → r.isLive = true →
      r.field .agentGroup = .ofText g → c r = c' g ∨ g = group)
    (hnone : row = none → m = some none → c' none = true → group = none)
    (habsent : ∀ r, row = some r → m = none → c r = true → r.isLive = true →
      (∀ g, r.field .agentGroup ≠ .text g) → group = none) :
    Stands (row.map fun r => if c r then r.withGroup (.ofText group) else r)
      (m.map fun g => if c' g then group else g) := by
  cases m with
  | none =>
    intro r' hr' hlive g
    obtain ⟨r, hr, rfl⟩ := Option.map_eq_some_iff.mp hr'
    split_ifs at hlive ⊢ with hc
    · rw [habsent r hr rfl hc hlive (h r hr hlive)]
      simp [Value.ofText]
    · exact h r hr hlive g
  | some g =>
    rcases h with ⟨rfl, rfl⟩ | ⟨r, rfl, hlive, hgroup⟩
    · refine .inl ⟨rfl, ?_⟩
      dsimp only
      split_ifs with hc
      · exact hnone rfl rfl hc
      · rfl
    · refine .inr ⟨_, rfl, ?_, ?_⟩
      · dsimp only
        split_ifs
        · exact hlive
        · exact hlive
      · rcases hsame r rfl g rfl hlive hgroup with hc | rfl
        · dsimp only
          rw [← hc]
          split_ifs
          · rfl
          · exact hgroup
        · -- it is in the group already
          dsimp only
          rw [ite_self]
          split_ifs
          · rfl
          · exact hgroup

/-- A row that is not there yet, as it is created, is in no group. -/
lemma Stands.getOrCreate {row : Option Row} {m : Option (Option Text)} (h : Stands row m)
    (seqId : ℤ) (now : Text) : Stands (some (row.getD (newRow seqId now))) m := by
  cases row with
  | some r => exact h
  | none =>
    cases m with
    | none =>
      intro r hr _ group
      obtain rfl := Option.some.inj hr
      simp [newRow]
    | some g =>
      rcases h with ⟨-, rfl⟩ | ⟨r, hr, -⟩
      · exact .inr ⟨_, rfl, by simp [Row.isLive, newRow], rfl⟩
      · exact absurd hr (by simp)

/-- A container that exists is deployed again, into the group that it is in. -/
lemma Stands.redeployed {old : Option Row} {g : Option Text} (h : Stands old (some g)) {row : Row}
    (hlive : row.isLive = old.all Row.isLive) (hgroup : row.field .agentGroup = .ofText g) :
    Stands (some row) (some g) := by
  refine .inr ⟨row, rfl, ?_, hgroup⟩
  rw [hlive]
  rcases h with ⟨rfl, -⟩ | ⟨r, rfl, hrlive, -⟩
  · rfl
  · exact hrlive

/-- A deployment that creates no container is into no group, or of a name that was deleted. -/
lemma Stands.announced {old : Option Row} {group : Option Text} {row : Row}
    (h : group = none ∨ ∃ r, old = some r ∧ r.isLive = false)
    (hlive : row.isLive = old.all Row.isLive) (hgroup : row.field .agentGroup = .ofText group) :
    Stands (some row) none := by
  intro r hr hrlive g
  obtain rfl := Option.some.inj hr
  rcases h with rfl | ⟨r', rfl, hdead⟩
  · rw [hgroup]
    simp [Value.ofText]
  · -- the mark of the deletion is still there
    rw [hlive, Option.all_some, hdead] at hrlive
    exact absurd hrlive (by simp)

/-! ## What a deployment writes -/

lemma getOrCreateAgentSeqId_rows (s : Store) (name now : Text) (n : Text) :
    ∃ seqId, (getOrCreateAgentSeqId s name now).1.rows n
      = if n = name then some ((s.rows name).getD (newRow seqId now)) else s.rows n := by
  refine ⟨s.nextSeqId, ?_⟩
  split_ifs with hn
  · subst hn
    cases hrow : s.rows n with
    | none => rw [getOrCreateAgentSeqId_of_none hrow, Function.update_self, Option.getD_none]
    | some row => rw [getOrCreateAgentSeqId_of_some hrow, hrow, Option.getD_some]
  · exact getOrCreateAgentSeqId_rows_of_ne hn now

lemma announce_rows (settings : Settings) (now : Text) (s : Store) (name : Text) :
    ∃ seqId, (announce settings now s name).rows name
      = some (((s.rows name).getD (newRow seqId now)).overwrite (startingFields settings)) := by
  obtain ⟨seqId, hrow⟩ := getOrCreateAgentSeqId_rows s name now name
  rw [if_pos rfl] at hrow
  exact ⟨seqId, writeAgentMetadata_rows_self hrow rfl now⟩

/-- What is saved after a deployment says nothing about the group, or the group of the request;
it never takes the mark of a deletion away. -/
structure Saves (settings : Settings) (m : Metadata) : Prop where
  seqId : m.seqId = none
  deletedAt : m.field .deletedAt = none
  agentGroup : m.field .agentGroup = none ∨
    m.field .agentGroup = some (.ofText (settings .agentGroup))

lemma Course.saves {settings : Settings} {seqId : ℤ} {taken : Bool} {course : Course}
    {m : Metadata} (h : course.metadata settings seqId taken = some m) : Saves settings m := by
  cases course with
  | installed report =>
    obtain rfl := Option.some.inj h
    cases taken with
    | true => exact ⟨rfl, rfl, .inl rfl⟩
    | false => exact ⟨rfl, rfl, .inr rfl⟩
  | raised created =>
    cases taken with
    | true =>
      obtain rfl := Option.some.inj h
      exact ⟨rfl, rfl, .inl rfl⟩
    | false => exact absurd h (by simp [Course.metadata])
  | _ =>
    obtain rfl := Option.some.inj h
    exact ⟨rfl, rfl, .inl rfl⟩

namespace Fleet

variable (f : Fleet) (settings : Settings) (user : Option User) (autoCreate : Bool)
  (course : Course) (now : Text)

@[simp] lemma withGroupOf_rows : (f.withGroupOf settings).rows = f.store.rows := by
  unfold withGroupOf
  split_ifs <;> rfl

lemma deploy_rows_of_ne {name n : Text} (h : n ≠ name) :
    (f.deploy settings name user autoCreate course now).store.rows n = f.store.rows n := by
  unfold deploy
  split_ifs with hgroup
  · dsimp only
    split
    · rw [announce_rows_of_ne h]
      exact congrFun (f.withGroupOf_rows settings) n
    · rw [writeAgentMetadata_rows_of_ne h, announce_rows_of_ne h]
      exact congrFun (f.withGroupOf_rows settings) n
  · rfl

/-- **A deployment puts its name into its group, and a mark of a deletion stays.** -/
lemma deploy_rows_self (name : Text) (h : f.hasGroup settings autoCreate = true) :
    ∃ row, (f.deploy settings name user autoCreate course now).store.rows name = some row ∧
      row.field .agentGroup = .ofText (settings .agentGroup) ∧
      row.isLive = (f.store.rows name).all Row.isLive := by
  have hold : ∀ seqId, (((f.withGroupOf settings).rows name).getD (newRow seqId now)).isLive
      = (f.store.rows name).all Row.isLive := by
    intro seqId
    rw [withGroupOf_rows]
    cases f.store.rows name with
    | none => simp [Row.isLive, newRow]
    | some row => rfl
  unfold deploy
  rw [if_neg (not_not.mpr h)]
  dsimp only
  obtain ⟨seqId, hrow⟩ := announce_rows settings now
    { f.withGroupOf settings with
      owners := record (f.withGroupOf settings).owners
        (if decide (name ∈ f.containers) then [] else [name]) user } name
  split
  · exact ⟨_, hrow, rfl, hold seqId⟩
  · next metadata hmetadata =>
    have hsaves := Course.saves hmetadata
    refine ⟨_, writeAgentMetadata_rows_self hrow hsaves.seqId now, ?_, ?_⟩
    · rcases hsaves.agentGroup with hgroup | hgroup <;> simp [Row.overwrite, hgroup, startingFields]
    · rw [← hold seqId]
      simp [Row.isLive, Row.overwrite, hsaves.deletedAt, startingFields]

lemma mem_deploy {name n : Text} :
    n ∈ (f.deploy settings name user autoCreate course now).containers ↔
      n ∈ f.containers ∨ n = name ∧ f.hasGroup settings autoCreate = true ∧
        name ∉ f.containers ∧ course.creates = true := by
  unfold deploy
  by_cases h : f.hasGroup settings autoCreate = true
  · rw [if_neg (not_not.mpr h)]
    dsimp only
    cases hcreates : course.creates with
    | false => simp
    | true =>
      by_cases htaken : name ∈ f.containers
      · simp [htaken]
      · simp [htaken, h]
  · rw [if_pos h]
    simp [h]

end Fleet

/-! ## Every operation keeps the agreement -/

namespace Watch

/-- The database agrees with the observer's list. -/
def Agrees (w : Watch) : Prop :=
  ∀ n, (n ∈ w.fleet.containers ↔ (w.members n).isSome = true) ∧
    Stands (w.fleet.store.rows n) (w.members n)

lemma agrees_start (groups : Text → Bool) (owners : Owners) (containers : List Text) :
    Agrees (start groups owners containers) := by
  intro n
  simp only [start]
  split_ifs with hn
  · exact ⟨by simp [hn], .inl ⟨rfl, rfl⟩⟩
  · exact ⟨by simp [hn], fun r hr => absurd hr (by simp)⟩

variable {w : Watch}

lemma Agrees.inGroup_iff (h : Agrees w) (group n : Text) :
    InGroup w.fleet.store group n ↔ w.members n = some (some group) :=
  stands_iff (h n).2 group

lemma Agrees.deploy (h : Agrees w) (settings : Settings) (name : Text) (user : Option User)
    (autoCreate : Bool) (course : Course) (now : Text)
    (hguard : Orderly w (.deploy settings name user autoCreate course now)) :
    Agrees ⟨w.fleet.deploy settings name user autoCreate course now,
      w.members.after w.fleet (.deploy settings name user autoCreate course now)⟩ := by
  by_cases hgroup : w.fleet.hasGroup settings autoCreate = true
  swap
  · have hsame : w.fleet.deploy settings name user autoCreate course now = w.fleet := by
      rw [Fleet.deploy, if_pos hgroup]
    intro n
    simp only [hsame, Members.after, hgroup]
    exact h n
  have hcase := hguard hgroup
  intro n
  simp only [Fleet.mem_deploy, Members.after, hgroup, true_and]
  by_cases hn : n = name
  · subst hn
    obtain ⟨row, hrow, hrowGroup, hrowLive⟩ :=
      w.fleet.deploy_rows_self settings user autoCreate course now n hgroup
    rw [hrow]
    obtain ⟨hexists, hstands⟩ := h n
    by_cases htaken : n ∈ w.fleet.containers
    · -- the container exists: it stays in the group that it is in
      rw [if_pos htaken] at hcase
      obtain ⟨g, hg⟩ := Option.isSome_iff_exists.mp (hexists.mp htaken)
      have hsame : settings .agentGroup = g := by
        refine Option.ext fun group => ?_
        rw [hcase group, h.inGroup_iff, hg, Option.some.injEq]
      simp only [htaken, not_true_eq_false, false_and, if_false, hg]
      rw [hg] at hstands
      exact ⟨by simp, hstands.redeployed hrowLive (by rw [hrowGroup, hsame])⟩
    · rw [if_neg htaken] at hcase
      cases hcreates : course.creates with
      | true =>
        rw [hcreates, if_pos rfl] at hcase
        simp only [htaken, not_false_eq_true, and_self, if_true, Function.update_self]
        refine ⟨by simp, .inr ⟨row, rfl, ?_, hrowGroup⟩⟩
        rw [hrowLive]
        cases hold : w.fleet.store.rows n with
        | none => rfl
        | some r => exact hcase r hold
      | false =>
        rw [hcreates, if_neg Bool.false_ne_true] at hcase
        have hnone : w.members n = none := by
          rw [← Option.not_isSome_iff_eq_none, ← hexists]
          exact htaken
        simp only [htaken, hnone, Bool.false_eq_true, and_false, if_false]
        exact ⟨by simp, Stands.announced hcase hrowLive hrowGroup⟩
  · rw [Fleet.deploy_rows_of_ne _ _ _ _ _ _ hn]
    have hmembers : (if name ∉ w.fleet.containers ∧ course.creates = true then
        Function.update w.members name (some (settings .agentGroup)) else w.members) n
        = w.members n := by
      split_ifs
      · exact Function.update_of_ne hn _ _
      · rfl
    rw [hmembers]
    simpa [hn] using h n

lemma Agrees.delete (h : Agrees w) (user : Option User) (name : Text) (destroyed : Bool)
    (now : Text) : Agrees ⟨w.fleet.delete user name destroyed now,
      w.members.after w.fleet (.delete user name destroyed now)⟩ := by
  unfold Fleet.delete Members.after
  dsimp only
  split_ifs with haccepted
  · intro n
    dsimp only
    rw [markAgentDeleted, updateWhere_rows]
    by_cases hn : n = name
    · subst hn
      rw [Function.update_self]
      refine ⟨by simp, fun r hr hlive => ?_⟩
      obtain ⟨old, -, rfl⟩ := Option.map_eq_some_iff.mp hr
      simp only [decide_true, if_true, Row.isLive, Requests.Row.markDeleted, Row.overwrite,
        Option.getD_some, decide_eq_true_eq] at hlive
      exact absurd hlive (by simp)
    · rw [Function.update_of_ne hn]
      simpa [hn] using h n
  · exact h

lemma foldl_getOrCreate_rows (now : Text) (names : List Text) (s : Store) (n : Text) :
    ∃ seqId, (names.foldl (fun s n => (getOrCreateAgentSeqId s n now).1) s).rows n
      = if n ∈ names then some ((s.rows n).getD (newRow seqId now)) else s.rows n := by
  induction names generalizing s with
  | nil => exact ⟨0, by simp⟩
  | cons name names ih =>
    obtain ⟨seqId', hfirst⟩ := getOrCreateAgentSeqId_rows s name now n
    obtain ⟨seqId, hrest⟩ := ih (getOrCreateAgentSeqId s name now).1
    rw [List.foldl_cons, hrest, hfirst]
    by_cases hn : n = name
    · subst hn
      exact ⟨seqId', by simp⟩
    · exact ⟨seqId, by simp [hn]⟩

lemma validIds_subset (f : Fleet) (user : Option User) (ids : List Text) :
    ∀ n ∈ f.validIds user ids, n ∈ f.containers := by
  intro n hn
  have hvisible : n ∈ visible f.store.owners user f.containers := by
    simpa using (List.mem_filter.mp hn).2
  unfold visible at hvisible
  split_ifs at hvisible
  · exact hvisible
  · exact List.mem_of_mem_filter hvisible

lemma Agrees.assign (h : Agrees w) (user : Option User) (group : Text) (ids : List Text)
    (now : Text) : Agrees ⟨w.fleet.assign user group ids now,
      w.members.after w.fleet (.assign user group ids now)⟩ := by
  unfold Fleet.assign Members.after
  dsimp only
  split_ifs with hgroup
  · intro n
    obtain ⟨hexists, hstands⟩ := h n
    refine ⟨by simpa [Members.regroup] using hexists, ?_⟩
    dsimp only
    rw [assignAgentsToGroup_rows]
    obtain ⟨seqId, hrow⟩ :=
      foldl_getOrCreate_rows now (w.fleet.validIds user ids) w.fleet.store n
    rw [hrow]
    by_cases hn : n ∈ w.fleet.validIds user ids
    · have hmem := validIds_subset w.fleet user ids n hn
      rw [if_pos hn]
      have hregrouped := (hstands.getOrCreate seqId now).regroup
        (fun r => decide (n ∈ w.fleet.validIds user ids ∧ r.isLive = true))
        (fun _ => decide (n ∈ w.fleet.validIds user ids)) (some group)
        (fun r _ g _ hlive _ => .inl (by simp [hlive])) (fun hnone => absurd hnone (by simp))
        (fun r _ hnone => absurd (hexists.mp hmem) (by simp [hnone]))
      simpa [Members.regroup, Value.ofText] using hregrouped
    · rw [if_neg hn]
      simpa [hn, Members.regroup] using hstands
  · exact h

lemma Agrees.remove (h : Agrees w) (user : Option User) (group : Text) (ids : List Text)
    (hguard : Orderly w (.remove user group ids)) : Agrees ⟨w.fleet.remove user group ids,
      w.members.after w.fleet (.remove user group ids)⟩ := by
  unfold Fleet.remove Members.after
  dsimp only
  split_ifs with hgroup
  · intro n
    obtain ⟨hexists, hstands⟩ := h n
    refine ⟨by simpa [Members.regroup] using hexists, ?_⟩
    dsimp only
    rw [removeAgentsFromGroup_rows]
    have hregrouped := hstands.regroup
      (fun r => decide (n ∈ visible w.fleet.store.owners user ids ∧ r.isLive = true))
      (fun g => decide (n ∈ visible w.fleet.store.owners user ids ∧ g = some group)) none
      ?_ (fun _ _ _ => rfl) (fun _ _ _ _ _ _ => rfl)
    · simpa [Members.regroup, Value.ofText] using hregrouped
    · intro r hr g hg hlive hrowGroup
      cases g with
      | none => exact .inr rfl
      | some other =>
        refine .inl ?_
        by_cases hn : n ∈ visible w.fleet.store.owners user ids
        · -- it is in a group, so it is in the one of the request
          have hin : InGroup w.fleet.store other n := (h.inGroup_iff other n).mpr hg
          simp [hn, hlive, hguard hgroup n hn other hin]
        · simp [hn]
  · exact h

/-- The rows of a group that are not marked are the members of the group. -/
lemma Agrees.regroupIn (h : Agrees w) (old : Text) (group : Option Text) (n : Text) :
    Stands ((w.fleet.store.rows n).map fun r =>
        if r.liveIn old then r.withGroup (.ofText group) else r)
      (w.members.regroup (fun _ g => decide (g = some old)) group n) := by
  refine (h n).2.regroup (Row.liveIn old) (fun g => decide (g = some old)) group ?_ ?_ ?_
  · intro r _ g _ hlive hrowGroup
    refine .inl ?_
    have hsame : Value.ofText g = .text old ↔ g = some old :=
      ⟨fun hg => @Value.ofText_injective g (some old) hg, fun hg => by rw [hg]; rfl⟩
    simp [Row.liveIn, hlive, hrowGroup, hsame]
  · intro _ _ hnone
    exact absurd hnone (by simp)
  · intro r _ _ hin _ hno
    simp only [Row.liveIn, Bool.and_eq_true, decide_eq_true_eq] at hin
    exact absurd hin.1 (hno old)

lemma Agrees.rename (h : Agrees w) (old new : Text) : Agrees ⟨w.fleet.act (.rename old new),
    w.members.after w.fleet (.rename old new)⟩ := by
  simp only [Fleet.act, Members.after, renameGroup]
  by_cases hold : w.fleet.store.groups old = true
  · by_cases hnew : w.fleet.store.groups new = true
    · simpa [hold, hnew] using h
    · intro n
      obtain ⟨hexists, -⟩ := h n
      simp only [hold, hnew, not_true_eq_false, if_false, and_self, if_true]
      exact ⟨by simpa [Members.regroup] using hexists, h.regroupIn old (some new) n⟩
  · simpa [hold] using h

lemma Agrees.deleteGroup (h : Agrees w) (group : Text) :
    Agrees ⟨w.fleet.act (.deleteGroup group), w.members.after w.fleet (.deleteGroup group)⟩ := by
  simp only [Fleet.act, Members.after]
  split_ifs with hgroup
  · intro n
    obtain ⟨hexists, -⟩ := h n
    exact ⟨by simpa [Members.regroup] using hexists, h.regroupIn group none n⟩
  · exact h

lemma step_agrees {w' : Watch} {a : GroupAction} (h : Agrees w) (hguard : Orderly w a)
    (hstep : step w a = some w') : Agrees w' := by
  obtain rfl := Option.some.inj hstep
  cases a with
  | create group =>
    intro n
    simp only [Fleet.act, Members.after]
    split_ifs <;> exact h n
  | deploy settings name user autoCreate course now =>
    exact h.deploy settings name user autoCreate course now hguard
  | delete user name destroyed now => exact h.delete user name destroyed now
  | assign user group ids now => exact h.assign user group ids now
  | remove user group ids => exact h.remove user group ids hguard
  | rename old new => exact h.rename old new
  | deleteGroup group => exact h.deleteGroup group

/-- A request to remove containers from a group leaves every other container where it is. -/
lemma Agrees.remove_only (h : Agrees w) {user : Option User} {group : Text} {ids : List Text}
    (hguard : Orderly w (.remove user group ids)) {n : Text}
    (hn : ¬InGroup w.fleet.store group n) (other : Text) :
    InGroup (w.fleet.remove user group ids).store other n ↔ InGroup w.fleet.store other n := by
  rw [(h.remove user group ids hguard).inGroup_iff, h.inGroup_iff]
  rw [h.inGroup_iff] at hn
  simp only [Members.after]
  split_ifs
  · cases hm : w.members n with
    | none => simp [Members.regroup, hm]
    | some g =>
      have hne : g ≠ some group := fun hg => hn (by rw [hm, hg])
      simp [Members.regroup, hm, hne]
  · exact Iff.rfl

/-- **Group membership follows the last operation.**  In every run from a new database whose
operations are orderly, a group has exactly the existing containers that the last operation on
them put into it, no container is in two groups, and a request to remove containers from a group
changes only containers of that group. -/
theorem membership_follows {groups : Text → Bool} {owners : Owners} {containers : List Text}
    {as : List GroupAction} (hrun : Run step Orderly (start groups owners containers) as w) :
    (∀ group n, InGroup w.fleet.store group n ↔ w.members n = some (some group)) ∧
      (∀ n, w.members n ≠ none ↔ n ∈ w.fleet.containers) ∧
      (∀ group group' n, InGroup w.fleet.store group n → InGroup w.fleet.store group' n →
        group = group') ∧
      ∀ user group ids, Orderly w (.remove user group ids) → ∀ n,
        ¬InGroup w.fleet.store group n → ∀ other,
          (InGroup (w.fleet.act (.remove user group ids)).store other n ↔
            InGroup w.fleet.store other n) := by
  have h : Agrees w :=
    hrun.invariant (P := Agrees) (fun hw hguard hstep => step_agrees hw hguard hstep)
      (agrees_start groups owners containers)
  refine ⟨h.inGroup_iff, fun n => ?_, fun _ _ _ h₁ h₂ => h₁.unique h₂,
    fun user group ids hguard n hn other => h.remove_only hguard hn other⟩
  rw [(h n).1, Option.isSome_iff_ne_none]

/-! ## A container and two groups -/

/-- A host without containers, and the groups `default` and `lab`. -/
def sampleStart : Watch :=
  start (fun g => decide (g = "default".toList ∨ g = "lab".toList)) (fun _ => none) []

def web : Text := "web-0001".toList

/-- A bare container is deployed into the group `default`. -/
def deployWeb (course : Course) : GroupAction :=
  .deploy
    (fun
      | .siemType => some "none".toList
      | .agentGroup => some "default".toList
      | _ => none) web none false course []

def comesUp : Course := .installed ⟨"running".toList, "RUNNING".toList, .int 1, []⟩

/-- Whether the observer has the container in a group, and whether the database has. -/
def inGroups (group : Text) (w : Watch) : Bool × Bool :=
  (decide (w.members web = some (some group)), decide (InGroup w.fleet.store group web))

/-- **Membership is lost and gained.**  A container that is deployed again after it was deleted
is not in its group; one whose creation failed is; and a request to remove a container from the
group `lab` removes it from `default`. -/
theorem membership_not_followed :
    (exec step sampleStart
        [deployWeb comesUp, .delete none web true [], deployWeb comesUp]).map
        (inGroups "default".toList) = some (true, false) ∧
      (exec step sampleStart [deployWeb .createFailed]).map
        (inGroups "default".toList) = some (false, true) ∧
      (exec step sampleStart [deployWeb comesUp, .remove none "lab".toList [web]]).map
        (inGroups "default".toList) = some (true, false) := by
  decide +kernel

/-- A container is deployed, assigned, and goes with its group when that is renamed. -/
def orderlyRun : List GroupAction :=
  [deployWeb comesUp, .assign none "lab".toList [web] [], .rename "lab".toList "field".toList]

lemma run_orderlyRun {w : Watch} (h : exec step sampleStart orderlyRun = some w) :
    Run step Orderly sampleStart orderlyRun w := by
  obtain ⟨w₁, h₁, hrest⟩ := Option.bind_eq_some_iff.mp h
  obtain ⟨w₂, h₂, hrest⟩ := Option.bind_eq_some_iff.mp hrest
  obtain ⟨w₃, h₃, hend⟩ := Option.bind_eq_some_iff.mp hrest
  obtain rfl := Option.some.inj hend
  refine .cons ?_ h₁ (.cons trivial h₂ (.cons trivial h₃ (.nil _)))
  -- the name is new
  intro _ row hrow
  exact absurd hrow (Option.not_mem_none row)

theorem membership_follows_orderlyRun :
    ∃ w, exec step sampleStart orderlyRun = some w ∧
      w.members web = some (some "field".toList) ∧ InGroup w.fleet.store "field".toList web := by
  have hmembers : (exec step sampleStart orderlyRun).map (fun w => w.members web)
      = some (some (some "field".toList)) := by decide +kernel
  obtain ⟨w, hw, hweb⟩ := Option.map_eq_some_iff.mp hmembers
  exact ⟨w, hw, hweb, ((membership_follows (run_orderlyRun hw)).1 "field".toList web).mpr hweb⟩

end Watch

end Habeny.Agents
