import Habeny.Lib.Text
import Habeny.Tenancy.Teams

/-!
# The stored metadata of containers

The database has one row for each container it has heard of, and rows are only ever marked
deleted.  `writeAgentMetadata` updates the keys it is given and keeps the rest of the row;
what the last writes gave each key is therefore all that can differ (`Overrides`).
-/

namespace Habeny.Agents

open Habeny.Lib Habeny.Tenancy

/-- The columns of a container's row, its name, its number and the time of its last update
apart. -/
inductive Column where
  | siemType
  | siemIp
  | siemVersion
  | agentGroup
  | osType
  | configTemplateId
  | lifecycleStatus
  | state
  | initPid
  | ipAddresses
  | siemAgentStatus
  | siemAgentRunning
  | siemAgentLastCheck
  | managerHost
  | managerPort
  | managerStatus
  | managerReachable
  | syslogListener
  | createdAt
  | deletedAt
  deriving DecidableEq

/-- A stored value. -/
inductive Value where
  | null
  | int (n : ℤ)
  | bool (b : Bool)
  | text (t : Text)
  | list (ts : List Text)
  deriving DecidableEq

/-- An optional text as a stored value. -/
def Value.ofText : Option Text → Value
  | none => .null
  | some t => .text t

/-- The row of a container. -/
structure Row where
  seqId : ℤ
  field : Column → Value

/-- A dictionary of values for some of the columns.  The number may stand under either of its
two keys, and may be `None`. -/
structure Metadata where
  seqId : Option (Option ℤ)
  agentSeqId : Option (Option ℤ)
  field : Column → Option Value

/-- What the application stores: the rows of the containers, the next number for a new one,
the recorded owners, and which groups there are. -/
structure Store where
  rows : Text → Option Row
  nextSeqId : ℤ
  owners : Owners
  groups : Text → Bool

/-! ## Reading and writing -/

/-- The dictionary `{**a, **b}`. -/
def Metadata.override (a b : Metadata) : Metadata :=
  { seqId := b.seqId.or a.seqId, agentSeqId := b.agentSeqId.or a.agentSeqId,
    field := fun c => (b.field c).or (a.field c) }

/-- The empty dictionary. -/
def Metadata.empty : Metadata := { seqId := none, agentSeqId := none, field := fun _ => none }

def readAgentMetadata (s : Store) (name : Text) : Metadata :=
  match s.rows name with
  | none => .empty
  | some row =>
    { seqId := some (some row.seqId), agentSeqId := some (some row.seqId),
      field := fun c => some (row.field c) }

/-- A row with all columns empty but its number and the time of its creation. -/
def newRow (seqId : ℤ) (now : Text) : Row :=
  { seqId := seqId, field := fun c => if c = .createdAt then .text now else .null }

/-- The number of a container; one that has none gets a row with the next one. -/
def getOrCreateAgentSeqId (s : Store) (name now : Text) : Store × ℤ :=
  match s.rows name with
  | some row => (s, row.seqId)
  | none =>
    ({ s with rows := Function.update s.rows name (some (newRow s.nextSeqId now)),
              nextSeqId := s.nextSeqId + 1 }, s.nextSeqId)

/-- `INSERT … ON CONFLICT(agent_name) DO UPDATE` with the given columns. -/
def upsertAgent (s : Store) (name : Text) (seqId : ℤ) (field : Column → Option Value) : Store :=
  let old : Column → Value := match s.rows name with
    | some row => row.field
    | none => fun _ => .null
  { s with
    rows := Function.update s.rows name (some ⟨seqId, fun c => (field c).getD (old c)⟩) }

/-- Persist container metadata for later lookup. -/
def writeAgentMetadata (s : Store) (name : Text) (metadata : Metadata) (now : Text) : Store :=
  let payload := (readAgentMetadata s name).override metadata
  match payload.seqId.or payload.agentSeqId with
  | some (some seqId) => upsertAgent s name seqId payload.field
  | some none | none =>
    let (s', seqId) := getOrCreateAgentSeqId s name now
    upsertAgent s' name seqId payload.field

/-! ## What a write changes -/

/-- A row with some of its columns overwritten. -/
def Row.overwrite (row : Row) (field : Column → Option Value) : Row :=
  { row with field := fun c => (field c).getD (row.field c) }

@[simp] lemma getOrCreateAgentSeqId_owners (s : Store) (name now : Text) :
    (getOrCreateAgentSeqId s name now).1.owners = s.owners := by
  unfold getOrCreateAgentSeqId
  cases s.rows name <;> rfl

lemma getOrCreateAgentSeqId_of_some {s : Store} {name : Text} {row : Row}
    (h : s.rows name = some row) (now : Text) :
    getOrCreateAgentSeqId s name now = (s, row.seqId) := by
  simp only [getOrCreateAgentSeqId, h]

lemma getOrCreateAgentSeqId_of_none {s : Store} {name : Text} (h : s.rows name = none)
    (now : Text) : (getOrCreateAgentSeqId s name now).1.rows
      = Function.update s.rows name (some (newRow s.nextSeqId now)) := by
  simp only [getOrCreateAgentSeqId, h]

lemma getOrCreateAgentSeqId_rows_of_ne {s : Store} {name other : Text} (h : other ≠ name)
    (now : Text) : (getOrCreateAgentSeqId s name now).1.rows other = s.rows other := by
  cases hr : s.rows name with
  | none => rw [getOrCreateAgentSeqId_of_none hr, Function.update_of_ne h]
  | some row => rw [getOrCreateAgentSeqId_of_some hr]

/-- Once asked for its number, a container has a row. -/
lemma getOrCreateAgentSeqId_isSome (s : Store) (name now : Text) :
    ((getOrCreateAgentSeqId s name now).1.rows name).isSome = true := by
  cases hr : s.rows name with
  | none => rw [getOrCreateAgentSeqId_of_none hr, Function.update_self]; rfl
  | some row => rw [getOrCreateAgentSeqId_of_some hr, hr]; rfl

@[simp] lemma upsertAgent_owners (s : Store) (name : Text) (seqId : ℤ)
    (field : Column → Option Value) : (upsertAgent s name seqId field).owners = s.owners := rfl

lemma upsertAgent_rows_of_ne {s : Store} {name other : Text} (h : other ≠ name) (seqId : ℤ)
    (field : Column → Option Value) :
    (upsertAgent s name seqId field).rows other = s.rows other :=
  Function.update_of_ne h _ _

@[simp] lemma writeAgentMetadata_owners (s : Store) (name : Text) (metadata : Metadata)
    (now : Text) : (writeAgentMetadata s name metadata now).owners = s.owners := by
  unfold writeAgentMetadata
  dsimp only
  split
  · rfl
  all_goals rw [upsertAgent_owners, getOrCreateAgentSeqId_owners]

lemma writeAgentMetadata_rows_of_ne {s : Store} {name other : Text} (h : other ≠ name)
    (metadata : Metadata) (now : Text) :
    (writeAgentMetadata s name metadata now).rows other = s.rows other := by
  unfold writeAgentMetadata
  dsimp only
  split
  · exact upsertAgent_rows_of_ne h _ _
  all_goals rw [upsertAgent_rows_of_ne h, getOrCreateAgentSeqId_rows_of_ne h]

/-- **A write to a container that has a row overwrites the given columns of it.**  Its number
stays, whatever number the dictionary names under the other key. -/
lemma writeAgentMetadata_rows_self {s : Store} {name : Text} {row : Row} {metadata : Metadata}
    (h : s.rows name = some row) (hseq : metadata.seqId = none) (now : Text) :
    (writeAgentMetadata s name metadata now).rows name
      = some (row.overwrite metadata.field) := by
  have hread : readAgentMetadata s name
      = ⟨some (some row.seqId), some (some row.seqId), fun c => some (row.field c)⟩ := by
    simp only [readAgentMetadata, h]
  simp only [writeAgentMetadata, hread, Metadata.override, hseq, Option.none_or, Option.some_or,
    upsertAgent, h, Function.update_self, Row.overwrite, Option.some.injEq, Row.mk.injEq,
    true_and]
  funext c
  cases metadata.field c <;> rfl

/-- Overwriting twice is overwriting with what is given last. -/
lemma Row.overwrite_overwrite (row : Row) (f g : Column → Option Value) :
    (row.overwrite f).overwrite g = row.overwrite fun c => (g c).or (f c) := by
  simp only [Row.overwrite, Row.mk.injEq, true_and]
  funext c
  cases g c <;> rfl

/-- A row already holds the values of a dictionary. -/
def Row.Holds (row : Row) (field : Column → Option Value) : Prop :=
  ∀ c v, field c = some v → row.field c = v

/-- Overwriting changes nothing exactly in a row that holds the values. -/
lemma Row.overwrite_eq_self_iff {row : Row} {field : Column → Option Value} :
    row.overwrite field = row ↔ row.Holds field := by
  constructor
  · intro h c v hv
    have hc : (row.overwrite field).field c = row.field c := by rw [h]
    rw [← hc, Row.overwrite]
    simp only [hv, Option.getD_some]
  · intro h
    rw [Row.overwrite]
    congr 1
    funext c
    cases hc : field c with
    | none => rfl
    | some v => exact (h c v hc).symm

end Habeny.Agents
