import Habeny.Requests.Containers

/-!
# The groups of containers

A container's group is a column of its row, next to the mark that says the container was
deleted.  The operations on groups are single transactions, and they leave alone the rows that
are marked.  `UPDATE agents SET … WHERE …` is `updateWhere`: it changes each row by itself.
-/

namespace Habeny.Agents

open Habeny.Lib Habeny.Tenancy

/-! ## The transactions -/

/-- `UPDATE agents SET … WHERE …`. -/
def updateWhere (s : Store) (cond : Text → Row → Bool) (set : Row → Row) : Store :=
  { s with rows := fun n => (s.rows n).map fun row => if cond n row then set row else row }

/-- `deleted_at IS NULL`. -/
def Row.isLive (row : Row) : Bool := decide (row.field .deletedAt = .null)

/-- A row with another group. -/
def Row.withGroup (v : Value) (row : Row) : Row :=
  row.overwrite fun c => if c = .agentGroup then some v else none

/-- Mark the row of a container as deleted. -/
def markAgentDeleted (s : Store) (name now : Text) : Store :=
  updateWhere s (fun n _ => decide (n = name)) fun row => Requests.Row.markDeleted row now

/-- A container is in a group: `get_agents_in_group` lists the names of which this holds. -/
def InGroup (s : Store) (group name : Text) : Prop :=
  ∃ row ∈ s.rows name, row.field .agentGroup = .text group ∧ row.isLive = true

instance (s : Store) (group name : Text) : Decidable (InGroup s group name) :=
  inferInstanceAs (Decidable (∃ row ∈ s.rows name, _))

/-- Put some containers into a group. -/
def assignAgentsToGroup (s : Store) (group : Text) (names : List Text) : Store :=
  names.foldl (fun s name =>
    updateWhere s (fun n row => decide (n = name) && row.isLive) (Row.withGroup (.text group))) s

/-- Take some containers out of the group that they are in. -/
def removeAgentsFromGroup (s : Store) (names : List Text) : Store :=
  names.foldl (fun s name =>
    updateWhere s (fun n row => decide (n = name) && row.isLive) (Row.withGroup .null)) s

/-- The rows of a group that are not marked. -/
def Row.liveIn (group : Text) (row : Row) : Bool :=
  decide (row.field .agentGroup = .text group) && row.isLive

/-- Rename a group, with its containers. -/
def renameGroup (s : Store) (old new : Text) : Except Text Store :=
  if ¬s.groups old then .error "Group not found".toList
  else if s.groups new then .error "Group name already exists".toList
  else
    .ok (updateWhere
      { s with groups := Function.update (Function.update s.groups old false) new true }
      (fun _ => Row.liveIn old) (Row.withGroup (.text new)))

/-- Delete a group; its containers are in none then. -/
def deleteGroup (s : Store) (group : Text) : Store :=
  updateWhere { s with groups := Function.update s.groups group false }
    (fun _ => Row.liveIn group) (Row.withGroup .null)

def createGroup (s : Store) (group : Text) : Store :=
  { s with groups := Function.update s.groups group true }

/-! ## What they change -/

@[simp] lemma Row.withGroup_agentGroup (v : Value) (row : Row) :
    (row.withGroup v).field .agentGroup = v := rfl

@[simp] lemma Row.withGroup_deletedAt (v : Value) (row : Row) :
    (row.withGroup v).field .deletedAt = row.field .deletedAt := rfl

@[simp] lemma Row.withGroup_isLive (v : Value) (row : Row) :
    (row.withGroup v).isLive = row.isLive := rfl

@[simp] lemma Row.withGroup_withGroup (v w : Value) (row : Row) :
    (row.withGroup v).withGroup w = row.withGroup w := by
  simp only [Row.withGroup, Row.overwrite, Row.mk.injEq, true_and]
  funext c
  split_ifs <;> rfl

lemma inGroup_iff {s : Store} {group name : Text} {row : Row} (h : s.rows name = some row) :
    InGroup s group name ↔ row.field .agentGroup = .text group ∧ row.isLive = true := by
  simp [InGroup, h]

lemma not_inGroup_of_none {s : Store} {name : Text} (h : s.rows name = none) (group : Text) :
    ¬InGroup s group name := by
  simp [InGroup, h]

/-- **No container is in two groups.** -/
lemma InGroup.unique {s : Store} {group group' name : Text} (h : InGroup s group name)
    (h' : InGroup s group' name) : group = group' := by
  obtain ⟨row, hrow, hgroup, -⟩ := h
  rw [inGroup_iff hrow] at h'
  exact Value.text.inj (hgroup.symm.trans h'.1)

lemma updateWhere_rows (s : Store) (cond : Text → Row → Bool) (set : Row → Row) (n : Text) :
    (updateWhere s cond set).rows n
      = (s.rows n).map fun row => if cond n row then set row else row := rfl

/-- A loop over names sets the group of the ones among them that are not marked. -/
lemma foldl_withGroup_rows (v : Value) (names : List Text) (s : Store) (n : Text) :
    (names.foldl (fun s name =>
      updateWhere s (fun n row => decide (n = name) && row.isLive) (Row.withGroup v)) s).rows n
      = (s.rows n).map fun row =>
        if n ∈ names ∧ row.isLive = true then row.withGroup v else row := by
  induction names generalizing s with
  | nil => simp
  | cons name names ih =>
    rw [List.foldl_cons, ih, updateWhere_rows, Option.map_map]
    congr 1
    funext row
    by_cases hname : n = name
    · subst hname
      cases hlive : row.isLive <;> simp [hlive]
    · simp [hname]

lemma assignAgentsToGroup_rows (s : Store) (group : Text) (names : List Text) (n : Text) :
    (assignAgentsToGroup s group names).rows n = (s.rows n).map fun row =>
      if n ∈ names ∧ row.isLive = true then row.withGroup (.text group) else row :=
  foldl_withGroup_rows (.text group) names s n

lemma removeAgentsFromGroup_rows (s : Store) (names : List Text) (n : Text) :
    (removeAgentsFromGroup s names).rows n = (s.rows n).map fun row =>
      if n ∈ names ∧ row.isLive = true then row.withGroup .null else row :=
  foldl_withGroup_rows .null names s n

end Habeny.Agents
