import Habeny.Lib.Dict
import Habeny.Lib.Text
import Mathlib.Data.Char
import Mathlib.Data.Finmap
import Mathlib.Data.List.Lex

/-!
# The store of records

Simulations, reports, deployments, log schedules and templates are dictionaries in memory that
are written to the table `records`.  A record that is set is written at once; one that is changed
in place is written by the next `flush`, which compares what it would write with a digest of what
it wrote last.

A record is a JSON object.  What the program reads of one is the text of its `status`, and of a
`detection` that is an object again; the values below that are of any type `J` that has texts.
-/

namespace Habeny.Records

open Habeny.Lib

/-- Values that have texts among them, and some of which SQLite stores in a column. -/
class Leaf (J : Type) where
  text : Text → J
  text_injective : Function.Injective text
  storable : J → Bool
  storable_text : ∀ t, storable (text t) = true

/-- A value of a record: an object, or another one. -/
inductive Field (J : Type) where
  | plain (v : J)
  | object (entries : Finmap fun _ : Text => J)
  deriving DecidableEq

/-- A JSON object with text keys, whose order does not matter. -/
abbrev Record (J : Type) := Finmap fun _ : Text => Field J

/-- How records are written: `json.dumps` with sorted keys, `json.loads` and `sha1`. -/
structure Codec (J D H : Type) where
  dumps : Record J → D
  loads : D → Record J
  loads_dumps : ∀ r, loads (dumps r) = r
  digest : D → H
  digest_injective : Function.Injective digest

lemma Codec.dumps_injective {J D H : Type} (c : Codec J D H) : Function.Injective c.dumps :=
  Function.LeftInverse.injective c.loads_dumps

/-! ## Records -/

def statusKey : Text := "status".toList
def statusBeforeKey : Text := "status_before_restart".toList
def interruptedAtKey : Text := "interrupted_at".toList
def detectionKey : Text := "detection".toList
def errorKey : Text := "error".toList

def interrupted : Text := "interrupted".toList

def activeStatuses : List Text := ["running".toList, "starting".toList, "queued".toList]

def transientKeys : List Text := ["task".toList]

/-- The statuses of a detection check that is not done. -/
def pendingStatuses : List Text := ["waiting".toList, "checking".toList]

namespace Record

variable {J : Type}

/-- The record without its transient keys, as it is written. -/
def strip (r : Record J) : Record J := transientKeys.foldl (fun r k => r.erase k) r

/-- What the column `status` of a record gets; nothing when SQLite refuses it. -/
def statusColumn [Leaf J] (r : Record J) : Option (Option J) :=
  match r.lookup statusKey with
  | none => some none
  | some (.plain v) => if Leaf.storable v then some (some v) else none
  | some (.object _) => none

variable [Leaf J] [DecidableEq J]

def isActive (r : Record J) : Bool :=
  match r.lookup statusKey with
  | some (.plain v) => activeStatuses.any fun t => decide (v = Leaf.text t)
  | _ => false

/-- The detection check of a record, if it is not done. -/
def pendingDetection (r : Record J) : Option (Finmap fun _ : Text => J) :=
  match r.lookup detectionKey with
  | some (.object d) =>
    if pendingStatuses.any fun t => decide (d.lookup statusKey = some (Leaf.text t)) then some d
    else none
  | _ => none

/-- A record that was running is interrupted. -/
def interrupt (r : Record J) (now : Text) : Record J :=
  match r.lookup statusKey with
  | some status =>
    if r.isActive then
      ((r.insert statusBeforeKey status).insert statusKey (.plain (Leaf.text interrupted))).insert
        interruptedAtKey (.plain (Leaf.text now))
    else r
  | none => r

/-- A detection check that was cut off can be run again. -/
def cutOff (d : Finmap fun _ : Text => J) : Finmap fun _ : Text => J :=
  (d.insert statusKey (Leaf.text "not_checked".toList)).insert errorKey
    (Leaf.text "Habeny restarted before the check; run it again".toList)

/-- What `load` makes of a record that it has read. -/
def recover (r : Record J) (now : Text) : Record J :=
  match r.pendingDetection with
  | some d => (r.interrupt now).insert detectionKey (.object (cutOff d))
  | none => r.interrupt now

end Record

/-! ## The store and the table -/

/-- A row of the table, for one kind of records. -/
structure Row (J D : Type) where
  status : Option J
  data : D
  createdAt : Text
  updatedAt : Text

/-- A row that is not in progress and was last written before a time. -/
def Row.expired {J D : Type} [Leaf J] [DecidableEq J] (row : Row J D) (before : Text) : Bool :=
  decide (row.updatedAt < before) &&
    activeStatuses.all fun t => decide (row.status ≠ some (Leaf.text t))

/-- A store of one kind of records, with the rows of the table that are of this kind. -/
structure Store (J D H : Type) where
  memory : Dict Text (Record J)
  saved : Text → Option H
  rows : Dict Text (Row J D)
  prunable : Bool

namespace Store

variable {J D H : Type} [Leaf J] [DecidableEq J] [DecidableEq H] (c : Codec J D H)

/-- `INSERT … ON CONFLICT DO UPDATE` -/
def written (old : Option (Row J D)) (status : Option J) (data : D) (now : Text) : Row J D :=
  { status, data, createdAt := (old.map Row.createdAt).getD now, updatedAt := now }

/-- Write a record that differs from what was written last; nothing when SQLite refuses it. -/
def save (s : Store J D H) (key now : Text) : Option (Store J D H) :=
  match s.memory.get key with
  | none => some s
  | some value =>
    let data := c.dumps value.strip
    if s.saved key = some (c.digest data) then some s
    else
      value.statusColumn.map fun status =>
        { s with
          rows := s.rows.set key (written (s.rows.get key) status data now)
          saved := Function.update s.saved key (some (c.digest data)) }

/-- Save some records; what was written when one is refused, and else how many were. -/
def saveEach (now : Text) (s : Store J D H) : List Text → ℕ → Store J D H × Option ℕ
  | [], count => (s, some count)
  | key :: keys, count =>
    match s.save c key now with
    | none => (s, none)
    | some s' => saveEach now s' keys (count + if s'.saved key = s.saved key then 0 else 1)

/-- Save the records that were changed in place. -/
def flush (s : Store J D H) (now : Text) : Store J D H × Option ℕ :=
  saveEach c now s s.memory.keys 0

/-- `_delete` -/
def forget (s : Store J D H) (key : Text) : Store J D H :=
  { s with saved := Function.update s.saved key none, rows := s.rows.erase key }

/-- Remove a record from the memory and from the table. -/
def discard (s : Store J D H) (key : Text) : Store J D H :=
  { s.forget key with memory := s.memory.erase key }

/-- `del store[key]`; nothing happens when there is no such record. -/
def delete (s : Store J D H) (key : Text) : Store J D H :=
  if key ∈ s.memory.keys then s.discard key else s

/-- Remove a record and give it back, if there is one. -/
def pop (s : Store J D H) (key : Text) : Store J D H × Option (Record J) :=
  (s.delete key, s.memory.get key)

/-- `store[key] = value`, and whether that returns. -/
def set (s : Store J D H) (key : Text) (value : Record J) (now : Text) : Store J D H × Bool :=
  let s := { s with memory := s.memory.set key value }
  match s.save c key now with
  | none => (s, false)
  | some s' => (s', true)

def setdefault (s : Store J D H) (key : Text) (default : Record J) (now : Text) :
    Store J D H × Bool :=
  if key ∈ s.memory.keys then (s, true) else s.set c key default now

def update (now : Text) (s : Store J D H) : List (Text × Record J) → Store J D H × Bool
  | [] => (s, true)
  | (key, value) :: items =>
    match s.set c key value now with
    | (s', false) => (s', false)
    | (s', true) => update now s' items

def clear (s : Store J D H) : Store J D H := s.memory.keys.foldl delete s

/-- The records that `prune` forgets. -/
def expired (s : Store J D H) (before : Text) : List Text :=
  if s.prunable then
    s.rows.keys.filter fun key => (s.rows.get key).any fun row => row.expired before
  else []

/-- Forget finished records last written before a time, and how many they were. -/
def prune (s : Store J D H) (before : Text) : Store J D H × ℕ :=
  ((s.expired before).foldl discard s, (s.expired before).length)

/-- The rows as they are read. -/
def fetched (rows : Dict Text (Row J D)) : List (Text × Row J D) :=
  (rows.keys.filterMap fun key => (rows.get key).map fun row => (key, row)).mergeSort
    fun p q => decide (p.2.createdAt ≤ q.2.createdAt)

/-- Take a row over; a detection check that was cut off is saved at once. -/
def takeOver (now : Text) (s : Store J D H) (key : Text) (row : Row J D) : Option (Store J D H) :=
  let value := c.loads row.data
  let s := { s with
    memory := s.memory.set key (value.recover now)
    saved := Function.update s.saved key (some (c.digest row.data)) }
  if value.pendingDetection.isSome then s.save c key now else some s

/-- Take the rows over one after another, with the keys of the interrupted ones. -/
def loadRows (now : Text) (s : Store J D H) (ids : List Text) :
    List (Text × Row J D) → Option (Store J D H × List Text)
  | [] => some (s, ids)
  | (key, row) :: rest =>
    (takeOver c now s key row).bind fun s =>
      loadRows now s (if (c.loads row.data).isActive then ids ++ [key] else ids) rest

/-- Load the table into a new store; nothing when a record is refused. -/
def load (rows : Dict Text (Row J D)) (prunable : Bool) (now : Text) :
    Option (Store J D H × List Text) :=
  (loadRows c now { memory := .empty, saved := fun _ => none, rows, prunable } []
      (fetched rows)).bind fun loaded =>
    match saveEach c now loaded.1 loaded.2 0 with
    | (s, some _) => some (s, loaded.2)
    | (_, none) => none

/-- A record that is changed in place. -/
def mutate (s : Store J D H) (key : Text) (value : Record J) : Store J D H :=
  if key ∈ s.memory.keys then { s with memory := s.memory.set key value } else s

end Store

/-! ## Steps -/

/-- What is done with a store: the operations of a dictionary, a change of a record in place, what
the maintenance does, and a restart, which loses what was not written. -/
inductive StoreAction (J : Type) where
  | set (key : Text) (value : Record J) (now : Text)
  | delete (key : Text)
  | pop (key : Text)
  | setdefault (key : Text) (default : Record J) (now : Text)
  | update (items : List (Text × Record J)) (now : Text)
  | clear
  | mutate (key : Text) (value : Record J)
  | save (key now : Text)
  | flush (now : Text)
  | prune (before : Text)
  | restart (now : Text)

namespace Store

variable {J D H : Type} [Leaf J] [DecidableEq J] [DecidableEq H] (c : Codec J D H)

/-- A store that was loaded from an empty table. -/
def start (prunable : Bool) : Store J D H :=
  { memory := .empty, saved := fun _ => none, rows := .empty, prunable }

def step (s : Store J D H) : StoreAction J → Option (Store J D H)
  | .set key value now => some (s.set c key value now).1
  | .delete key => some (s.delete key)
  | .pop key => some (s.pop key).1
  | .setdefault key default now => some (s.setdefault c key default now).1
  | .update items now => some (update c now s items).1
  | .clear => some s.clear
  | .mutate key value => some (s.mutate key value)
  | .save key now => some ((s.save c key now).getD s)
  | .flush now => some (s.flush c now).1
  | .prune before => some (s.prune before).1
  | .restart now => (load c s.rows s.prunable now).map Prod.fst

end Store

end Habeny.Records
