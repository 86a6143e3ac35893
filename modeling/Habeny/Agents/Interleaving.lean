import Habeny.Agents.Groups
import Habeny.Agents.Table
import Habeny.Lib.Transition
import Mathlib.Data.List.Perm.Basic
import Mathlib.Data.List.Nodup

/-!
# Writes of metadata that overlap

`write_agent_metadata` reads a row in one transaction and writes all of its columns in another,
with a third one in between for a container that has no number yet.  The operations on groups
and the mark of a deletion are single transactions.  A run is any interleaving of all of them;
`serial` keeps an order of the operations in which they could have run one after another.

What a transaction writes between the two parts of another operation is lost.  Where no write
brings back what has changed since it read it, and nothing gets in the way of the first write of
a new row (`Undisturbed`), every run ends as the operations in that order do.
-/

namespace Habeny.Agents

open Habeny.Lib

/-! ## The operations -/

/-- An operation that is a single transaction. -/
inductive UpdateOp where
  | assign (group : Text) (names : List Text)
  | remove (names : List Text)
  | rename (old new : Text)
  | deleteGroup (group : Text)
  | markDeleted (name now : Text)

namespace UpdateOp

def apply (s : Store) : UpdateOp → Store
  | .assign group names => assignAgentsToGroup s group names
  | .remove names => removeAgentsFromGroup s names
  | .rename old new =>
    match renameGroup s old new with
    | .error _ => s
    | .ok s' => s'
  | .deleteGroup group => Agents.deleteGroup s group
  | .markDeleted name now => markAgentDeleted s name now

/-- What it does to the row of a name. -/
def onRow (groups : Text → Bool) (n : Text) (op : UpdateOp) (row : Row) : Row :=
  match op with
  | .assign group names =>
    if n ∈ names ∧ row.isLive = true then row.withGroup (.text group) else row
  | .remove names => if n ∈ names ∧ row.isLive = true then row.withGroup .null else row
  | .rename old new =>
    if groups old = true ∧ groups new = false ∧ row.liveIn old = true then
      row.withGroup (.text new)
    else row
  | .deleteGroup group => if row.liveIn group then row.withGroup .null else row
  | .markDeleted name now => if n = name then Requests.Row.markDeleted row now else row

lemma apply_rows (op : UpdateOp) (s : Store) (n : Text) :
    (op.apply s).rows n = (s.rows n).map (op.onRow s.groups n) := by
  cases op with
  | assign group names => exact assignAgentsToGroup_rows s group names n
  | remove names => exact removeAgentsFromGroup_rows s names n
  | rename old new =>
    simp only [apply, renameGroup]
    cases hrow : s.rows n with
    | none =>
      by_cases hold : s.groups old = true <;> by_cases hnew : s.groups new = true <;>
        simp [hold, hnew, updateWhere_rows, hrow]
    | some row =>
      by_cases hold : s.groups old = true <;> by_cases hnew : s.groups new = true <;>
        simp [hold, hnew, updateWhere_rows, hrow, onRow]
  | deleteGroup group =>
    rw [apply, Agents.deleteGroup, updateWhere_rows]
    rfl
  | markDeleted name now =>
    rw [apply, markAgentDeleted, updateWhere_rows]
    cases hrow : s.rows n with
    | none => rfl
    | some row => simp [onRow]

lemma onRow_seqId (groups : Text → Bool) (n : Text) (op : UpdateOp) (row : Row) :
    (op.onRow groups n row).seqId = row.seqId := by
  cases op <;> simp only [onRow] <;> split_ifs <;> rfl

lemma foldl_updateWhere_other {β : Type*} (g : Store → β)
    (hg : ∀ s cond set, g (updateWhere s cond set) = g s) (v : Value) (names : List Text)
    (s : Store) :
    g (names.foldl (fun s name =>
      updateWhere s (fun n row => decide (n = name) && row.isLive) (Row.withGroup v)) s) = g s := by
  induction names generalizing s with
  | nil => rfl
  | cons name names ih => rw [List.foldl_cons, ih, hg]

@[simp] lemma apply_nextSeqId (op : UpdateOp) (s : Store) :
    (op.apply s).nextSeqId = s.nextSeqId := by
  cases op with
  | assign group names => exact foldl_updateWhere_other Store.nextSeqId (fun _ _ _ => rfl) _ _ s
  | remove names => exact foldl_updateWhere_other Store.nextSeqId (fun _ _ _ => rfl) _ _ s
  | rename old new =>
    simp only [apply, renameGroup]
    by_cases hold : s.groups old = true <;> by_cases hnew : s.groups new = true <;>
      simp [hold, hnew, updateWhere]
  | deleteGroup group => rfl
  | markDeleted name now => rfl

/-- The groups that there are afterwards depend on the ones before only. -/
lemma apply_groups (op : UpdateOp) {s s' : Store} (h : s.groups = s'.groups) :
    (op.apply s).groups = (op.apply s').groups := by
  cases op with
  | assign group names =>
    simp only [apply, assignAgentsToGroup]
    rw [foldl_updateWhere_other Store.groups (fun _ _ _ => rfl),
      foldl_updateWhere_other Store.groups (fun _ _ _ => rfl), h]
  | remove names =>
    simp only [apply, removeAgentsFromGroup]
    rw [foldl_updateWhere_other Store.groups (fun _ _ _ => rfl),
      foldl_updateWhere_other Store.groups (fun _ _ _ => rfl), h]
  | rename old new =>
    simp only [apply, renameGroup, ← h]
    by_cases hold : s.groups old = true <;> by_cases hnew : s.groups new = true <;>
      simp [hold, hnew, updateWhere, h]
  | deleteGroup group => simp only [apply, Agents.deleteGroup, updateWhere, h]
  | markDeleted name now => exact h

end UpdateOp

lemma UpdateOp.apply_numbers (op : UpdateOp) (s : Store) (n : Text) :
    ((op.apply s).rows n).map Row.seqId = (s.rows n).map Row.seqId := by
  rw [op.apply_rows, Option.map_map]
  congr 1
  exact funext fun row => op.onRow_seqId s.groups n row

/-- An operation, as it is issued. -/
inductive MetadataOp where
  | write (name : Text) (changes : Metadata) (now : Text)
  | update (op : UpdateOp)

/-- Run an operation by itself. -/
def MetadataOp.run (t : Table) : MetadataOp → Table
  | .write name changes now => t.write name changes now
  | .update op => t.withRows (op.apply t.store) (op.apply_numbers t.store)

/-! ## Interleavings -/

/-- A write that has read its row: what it will write, its number once it has one, and whether
it created the row to get that. -/
structure Pending where
  name : Text
  changes : Metadata
  now : Text
  payload : Metadata
  seqId : Option ℤ
  created : Bool

def Pending.op (p : Pending) : MetadataOp := .write p.name p.changes p.now

/-- The table, the writes in flight, the operations that were issued, and an order in which they
could have run one after another.  A write has its place in it where it creates its row, and
otherwise where it writes. -/
structure Interleaved where
  table : Table
  pending : List Pending
  issued : List MetadataOp
  serial : List MetadataOp

/-- A transaction: the read of a write, the number of the `i`-th write in flight, its own write, or
an operation that is a single transaction. -/
inductive Transaction where
  | read (name : Text) (changes : Metadata) (now : Text)
  | number (i : ℕ)
  | write (i : ℕ)
  | update (op : UpdateOp)

namespace Interleaved

/-- No operation is in flight. -/
def start (t : Table) : Interleaved := { table := t, pending := [], issued := [], serial := [] }

/-- A write that has read its row. -/
def readFor (t : Table) (name : Text) (changes : Metadata) (now : Text) : Pending :=
  let payload := (readAgentMetadata t.store name).override changes
  { name, changes, now, payload, seqId := Table.numberOf payload, created := false }

/-- A write asks for its number; it fails if it does not get one. -/
def numbered (s : Interleaved) (i : ℕ) (p : Pending) : Interleaved :=
  match s.table.getOrCreate p.name p.now with
  | none => { s with pending := s.pending.eraseIdx i, serial := s.serial ++ [p.op] }
  | some (t, seqId) =>
    { s with
      table := t
      pending := s.pending.eraseIdx i ++
        [{ p with seqId := some seqId, created := (s.table.store.rows p.name).isNone }]
      serial := if (s.table.store.rows p.name).isNone then s.serial ++ [p.op] else s.serial }

/-- A write writes its row, unless another row has its number. -/
def written (s : Interleaved) (i : ℕ) (p : Pending) (seqId : ℤ) : Interleaved :=
  { s with
    table := (s.table.upsert p.name seqId p.payload.field).getD s.table
    pending := s.pending.eraseIdx i
    serial := if p.created then s.serial else s.serial ++ [p.op] }

def step (s : Interleaved) : Transaction → Option Interleaved
  | .read name changes now =>
    some { s with
      pending := s.pending ++ [readFor s.table name changes now]
      issued := s.issued ++ [.write name changes now] }
  | .number i =>
    (s.pending[i]?).bind fun p => if p.seqId.isNone then some (s.numbered i p) else none
  | .write i => (s.pending[i]?).bind fun p => p.seqId.map fun seqId => s.written i p seqId
  | .update op =>
    some { s with
      table := MetadataOp.run s.table (.update op)
      issued := s.issued ++ [.update op]
      serial := s.serial ++ [.update op] }

/-- The operations in some order, one after another. -/
def serially (t : Table) (ops : List MetadataOp) : Table := ops.foldl MetadataOp.run t

/-! ## The condition -/

/-- A row still holds what a write has read of it, in what the write does not change, and its
number. -/
def StillHolds (p : Pending) (row : Row) : Prop :=
  (∀ c, p.changes.field c = none → ∀ v ∈ p.payload.field c, row.field c = v) ∧
    p.seqId = some (Table.numberFor p.changes row)

/-- A change to the row of a name does not get in the way of a write that has created the row and
has yet to write it: it makes no difference which of the two comes first. -/
def Commutes (s : Interleaved) (n : Text) (change : Row → Row) : Prop :=
  ∀ p ∈ s.pending, p.created = true → p.name = n → ∀ row ∈ s.table.store.rows n,
    change (row.overwrite p.payload.field) = (change row).overwrite p.payload.field

/-- The condition under which nothing is lost.  A write of a row that was there writes over what
it has read; a write of a row that it created finds the row's number as it was; and what is
written between the creation of a row and its first write commutes with that. -/
def Undisturbed (s : Interleaved) : Transaction → Prop
  | .write i =>
    ∀ p, s.pending[i]? = some p → ∀ row ∈ s.table.store.rows p.name,
      if p.created then p.seqId = some row.seqId
      else StillHolds p row ∧ s.Commutes p.name fun r => r.overwrite p.changes.field
  | .update op => ∀ n, s.Commutes n (op.onRow s.table.store.groups n)
  | .read .. | .number _ => True

/-! ## The tables correspond -/

/-- What is known of a write in flight. -/
structure Shape (t : Table) (p : Pending) : Prop where
  given : ∀ c v, p.changes.field c = some v → p.payload.field c = some v
  fresh : t.store.rows p.name = none →
    p.payload = p.changes ∧ p.seqId = Table.numberOf p.changes ∧ p.created = false
  numbered : p.created = true → p.seqId ≠ none

/-- A row that is written stays there. -/
lemma Shape.of_update {t u : Table} {p : Pending} (hp : Shape t p) {n : Text} {r : Row}
    (hu : u.store.rows = Function.update t.store.rows n (some r)) : Shape u p := by
  refine ⟨hp.given, fun hnone => hp.fresh ?_, hp.numbered⟩
  rw [hu] at hnone
  by_cases hn : p.name = n
  · rw [hn, Function.update_self] at hnone
    exact absurd hnone (by simp)
  · rwa [Function.update_of_ne hn] at hnone

/-- The table `t'` of a serial run stands for the table `t` of an interleaving: the rows are the
same but for those that a write in flight has created. -/
structure Corresponds (t' t : Table) (pending : List Pending) : Prop where
  nextSeqId : t'.store.nextSeqId = t.store.nextSeqId
  groups : t'.store.groups = t.store.groups
  created : ∀ p ∈ pending, p.created = true → ∃ row, t.store.rows p.name = some row ∧
    t'.store.rows p.name = some (row.overwrite p.payload.field)
  others : ∀ n, (∀ p ∈ pending, p.created = true → p.name ≠ n) →
    t'.store.rows n = t.store.rows n
  distinct : ((pending.filter Pending.created).map Pending.name).Nodup
  shape : ∀ p ∈ pending, Shape t p

namespace Corresponds

variable {t' t : Table} {pending : List Pending}

/-- A row of the interleaving is in the serial run what it will be when its first write is
done. -/
lemma row_cases (h : Corresponds t' t pending) (n : Text) :
    t'.store.rows n = t.store.rows n ∨
      ∃ p ∈ pending, p.created = true ∧ p.name = n ∧ ∃ row, t.store.rows n = some row ∧
        t'.store.rows n = some (row.overwrite p.payload.field) := by
  by_cases hp : ∃ p ∈ pending, p.created = true ∧ p.name = n
  · obtain ⟨p, hmem, hcreated, rfl⟩ := hp
    exact .inr ⟨p, hmem, hcreated, rfl, h.created p hmem hcreated⟩
  · refine .inl (h.others n fun p hmem hcreated hname => hp ⟨p, hmem, hcreated, hname⟩)

lemma numbers (h : Corresponds t' t pending) (n : Text) :
    (t'.store.rows n).map Row.seqId = (t.store.rows n).map Row.seqId := by
  rcases h.row_cases n with hsame | ⟨p, -, -, -, row, hrow, hrow'⟩
  · rw [hsame]
  · rw [hrow, hrow']
    rfl

lemma rows_eq_none_iff (h : Corresponds t' t pending) {n : Text} :
    t'.store.rows n = none ↔ t.store.rows n = none := by
  rw [← Option.map_eq_none_iff (f := Row.seqId), h.numbers, Option.map_eq_none_iff]

/-- A number is taken in the one table if it is in the other. -/
lemma taken (h : Corresponds t' t pending) (n : Text) (seqId : ℤ) :
    t'.taken n seqId = t.taken n seqId := by
  have hfree : t'.taken n seqId = false ↔ t.taken n seqId = false := by
    rw [Table.taken_eq_false_iff, Table.taken_eq_false_iff]
    refine forall_congr' fun m => ?_
    have hm := h.numbers m
    constructor
    · intro hno row hne hrow hseq
      rw [hrow, Option.map_some, Option.map_eq_some_iff] at hm
      obtain ⟨row', hrow', hsame⟩ := hm
      exact hno row' hne hrow' (hsame.trans hseq)
    · intro hno row hne hrow hseq
      rw [hrow, Option.map_some] at hm
      obtain ⟨row', hrow', hsame⟩ := Option.map_eq_some_iff.mp hm.symm
      exact hno row' hne hrow' (hsame.trans hseq)
  cases htaken : t.taken n seqId with
  | false => exact hfree.mpr htaken
  | true =>
    by_contra hne
    have := hfree.mp (Bool.eq_false_iff.mpr hne)
    rw [htaken] at this
    exact absurd this (by simp)

/-- The order of the writes in flight does not matter. -/
lemma perm (h : Corresponds t' t pending) {pending' : List Pending} (hp : pending.Perm pending') :
    Corresponds t' t pending' where
  nextSeqId := h.nextSeqId
  groups := h.groups
  created := fun p hmem => h.created p (hp.mem_iff.mpr hmem)
  others := fun n hn => h.others n fun p hmem => hn p (hp.mem_iff.mp hmem)
  distinct := ((hp.filter _).map _).nodup_iff.mp h.distinct
  shape := fun p hmem => h.shape p (hp.mem_iff.mpr hmem)

/-- A write that has created no row yet may leave or come. -/
lemma drop {p : Pending} (h : Corresponds t' t (p :: pending)) (hp : p.created = false) :
    Corresponds t' t pending where
  nextSeqId := h.nextSeqId
  groups := h.groups
  created := fun q hmem => h.created q (List.mem_cons_of_mem _ hmem)
  others := fun n hn => h.others n fun q hmem hcreated => by
    rcases List.mem_cons.mp hmem with rfl | hmem
    · exact absurd (hp.symm.trans hcreated) (by simp)
    · exact hn q hmem hcreated
  distinct := by simpa [hp] using h.distinct
  shape := fun q hmem => h.shape q (List.mem_cons_of_mem _ hmem)

lemma add {p : Pending} (h : Corresponds t' t pending) (hp : p.created = false)
    (hshape : Shape t p) : Corresponds t' t (p :: pending) where
  nextSeqId := h.nextSeqId
  groups := h.groups
  created := fun q hmem hcreated => by
    rcases List.mem_cons.mp hmem with rfl | hmem
    · exact absurd (hp.symm.trans hcreated) (by simp)
    · exact h.created q hmem hcreated
  others := fun n hn => h.others n fun q hmem => hn q (List.mem_cons_of_mem _ hmem)
  distinct := by simpa [hp] using h.distinct
  shape := fun q hmem => by
    rcases List.mem_cons.mp hmem with rfl | hmem
    · exact hshape
    · exact h.shape q hmem

/-- One row is written in both tables. -/
lemma update (h : Corresponds t' t pending) {u' u : Table} {n : Text} {r' r : Row}
    (hu : u.store.rows = Function.update t.store.rows n (some r))
    (hu' : u'.store.rows = Function.update t'.store.rows n (some r'))
    (hnext : u'.store.nextSeqId = u.store.nextSeqId) (hgroups : u'.store.groups = u.store.groups)
    (hcreated : ∀ p ∈ pending, p.created = true → p.name = n → r' = r.overwrite p.payload.field)
    (hothers : (∀ p ∈ pending, p.created = true → p.name ≠ n) → r' = r) :
    Corresponds u' u pending where
  nextSeqId := hnext
  groups := hgroups
  created := fun p hmem hp => by
    rw [hu, hu']
    by_cases hn : p.name = n
    · rw [hn, Function.update_self, Function.update_self]
      exact ⟨r, rfl, by rw [hcreated p hmem hp hn]⟩
    · rw [Function.update_of_ne hn, Function.update_of_ne hn]
      exact h.created p hmem hp
  others := fun m hm => by
    rw [hu, hu']
    by_cases hn : m = n
    · subst hn
      rw [Function.update_self, Function.update_self, hothers hm]
    · rw [Function.update_of_ne hn, Function.update_of_ne hn]
      exact h.others m hm
  distinct := h.distinct
  shape := fun p hmem => (h.shape p hmem).of_update hu

/-- One row is inserted or updated in both tables, or the number is another row's in both. -/
lemma upsert (h : Corresponds t' t pending) (n : Text) (seqId : ℤ)
    {field' field : Column → Option Value}
    (hcreated : ∀ p ∈ pending, p.created = true → p.name = n →
      t'.upserted n seqId field' = (t.upserted n seqId field).overwrite p.payload.field)
    (hothers : (∀ p ∈ pending, p.created = true → p.name ≠ n) →
      t'.upserted n seqId field' = t.upserted n seqId field) :
    Corresponds ((t'.upsert n seqId field').getD t') ((t.upsert n seqId field).getD t) pending := by
  by_cases htaken : t.taken n seqId = true
  · rw [Table.upsert_eq_none_iff.mpr htaken,
      Table.upsert_eq_none_iff.mpr ((h.taken n seqId).trans htaken)]
    exact h
  · have hfree := Bool.eq_false_iff.mpr htaken
    rw [Table.upsert_of_free hfree, Table.upsert_of_free ((h.taken n seqId).trans hfree)]
    exact h.update rfl rfl h.nextSeqId h.groups hcreated hothers

/-- A write in flight that has created its row is of another name than one without a row. -/
lemma name_ne (h : Corresponds t' t pending) {n : Text} (hrow : t.store.rows n = none)
    {q : Pending} (hmem : q ∈ pending) (hcreated : q.created = true) : q.name ≠ n := by
  rintro rfl
  obtain ⟨row, hsome, -⟩ := h.created q hmem hcreated
  rw [hrow] at hsome
  exact absurd hsome (by simp)

/-- A single transaction runs in both tables. -/
lemma runUpdate (h : Corresponds t' t pending) (op : UpdateOp)
    (hcommute : ∀ p ∈ pending, p.created = true → ∀ row ∈ t.store.rows p.name,
      op.onRow t.store.groups p.name (row.overwrite p.payload.field)
        = (op.onRow t.store.groups p.name row).overwrite p.payload.field) :
    Corresponds (MetadataOp.run t' (.update op)) (MetadataOp.run t (.update op)) pending where
  nextSeqId := by
    simp only [MetadataOp.run, Table.withRows, UpdateOp.apply_nextSeqId]
    exact h.nextSeqId
  groups := op.apply_groups h.groups
  created := fun p hmem hp => by
    obtain ⟨row, hrow, hrow'⟩ := h.created p hmem hp
    simp only [MetadataOp.run, Table.withRows, UpdateOp.apply_rows, hrow, hrow', h.groups]
    exact ⟨_, rfl, congrArg some (hcommute p hmem hp row hrow)⟩
  others := fun n hn => by
    simp only [MetadataOp.run, Table.withRows, UpdateOp.apply_rows, h.groups, h.others n hn]
  distinct := h.distinct
  shape := fun p hmem => by
    have hp := h.shape p hmem
    refine ⟨hp.given, fun hnone => hp.fresh ?_, hp.numbered⟩
    simpa only [MetadataOp.run, Table.withRows, UpdateOp.apply_rows, Option.map_eq_none_iff]
      using hnone

end Corresponds

/-! ## Writes -/

section Writes

variable {t' t : Table} {pending : List Pending} {p : Pending}

/-- A write of a row that is not there is an insertion in both tables. -/
lemma write_of_none (h : t'.store.rows p.name = none) (hpayload : p.payload = p.changes)
    {seqId : ℤ} (hseq : p.seqId = some seqId) (hnumber : p.seqId = Table.numberOf p.changes) :
    MetadataOp.run t' p.op = (t'.upsert p.name seqId p.payload.field).getD t' := by
  simp only [Pending.op, MetadataOp.run, Table.write, Table.readAgentMetadata_of_none h,
    Table.empty_override, ← hnumber, hseq, hpayload]

/-- What a write that still holds leaves of a row. -/
lemma upserted_of_stillHolds {row : Row} (hshape : Shape t p)
    (hrow : t.store.rows p.name = some row) (hholds : StillHolds p row) (seqId : ℤ) :
    t.upserted p.name seqId p.payload.field
      = { row.overwrite p.changes.field with seqId := seqId } := by
  simp only [Table.upserted, hrow, Option.elim_some, Row.overwrite, Row.mk.injEq, true_and]
  funext c
  cases hc : p.changes.field c with
  | some v => rw [hshape.given c v hc]
  | none =>
    cases hv : p.payload.field c with
    | none => rfl
    | some v =>
      rw [Option.getD_some, Option.getD_none]
      exact (hholds.1 c hc v hv).symm

/-- **A write that nothing has disturbed is a write of its own at that moment.** -/
lemma Corresponds.write (h : Corresponds t' t pending) (hshape : Shape t p) {seqId : ℤ}
    (hseq : p.seqId = some seqId)
    (hguard : ∀ row ∈ t.store.rows p.name, StillHolds p row ∧
      ∀ q ∈ pending, q.created = true → q.name = p.name →
        (row.overwrite q.payload.field).overwrite p.changes.field
          = (row.overwrite p.changes.field).overwrite q.payload.field) :
    Corresponds (MetadataOp.run t' p.op) ((t.upsert p.name seqId p.payload.field).getD t)
      pending := by
  cases hrow : t.store.rows p.name with
  | none =>
    obtain ⟨hpayload, hnumber, -⟩ := hshape.fresh hrow
    have hrow' := h.rows_eq_none_iff.mpr hrow
    rw [write_of_none hrow' hpayload hseq hnumber]
    refine h.upsert p.name seqId
      (fun q hmem hcreated hname => absurd hname (h.name_ne hrow hmem hcreated)) fun _ => ?_
    simp only [Table.upserted, hrow, hrow']
  | some row =>
    obtain ⟨hholds, hcommute⟩ := hguard row hrow
    obtain rfl : Table.numberFor p.changes row = seqId :=
      Option.some.inj (hholds.2.symm.trans hseq)
    -- the row of the serial run has the same number
    obtain ⟨row', hrow', hseq'⟩ : ∃ row', t'.store.rows p.name = some row' ∧
        row'.seqId = row.seqId :=
      Option.map_eq_some_iff.mp ((h.numbers p.name).trans (by rw [hrow]; rfl))
    have hnumber : Table.numberFor p.changes row' = Table.numberFor p.changes row := by
      rw [Table.numberFor, hseq', Table.numberFor]
    have hrun : MetadataOp.run t' p.op = (t'.upsert p.name (Table.numberFor p.changes row)
        fun c => (p.changes.field c).or (some (row'.field c))).getD t' := by
      rw [← hnumber]
      exact Table.write_of_some hrow' p.changes p.now
    have hwritten : t'.upserted p.name (Table.numberFor p.changes row)
          (fun c => (p.changes.field c).or (some (row'.field c)))
        = { row'.overwrite p.changes.field with seqId := Table.numberFor p.changes row } := by
      simp only [Table.upserted, hrow', Option.elim_some, Row.overwrite, Row.mk.injEq, true_and]
      funext c
      cases p.changes.field c <;> rfl
    rw [hrun]
    refine h.upsert p.name _ (fun q hmem hcreated hname => ?_) fun hnone => ?_
    · rw [hwritten, upserted_of_stillHolds hshape hrow hholds]
      obtain ⟨row₀, hrow₀, hrow₀'⟩ := h.created q hmem hcreated
      rw [hname] at hrow₀ hrow₀'
      obtain rfl := Option.some.inj (hrow₀.symm.trans hrow)
      obtain rfl := Option.some.inj (hrow'.symm.trans hrow₀')
      rw [hcommute q hmem hcreated hname]
      rfl
    · rw [hwritten, upserted_of_stillHolds hshape hrow hholds]
      have hsame := h.others p.name hnone
      rw [hrow, hrow'] at hsame
      rw [Option.some.inj hsame]

/-- A write that creates its row, in the one table, writes it at once in the other. -/
lemma Corresponds.create (h : Corresponds t' t pending) (hshape : Shape t p)
    (hnumber : p.seqId = none) (hrow : t.store.rows p.name = none) {u : Table} {seqId : ℤ}
    (hcreate : t.getOrCreate p.name p.now = some (u, seqId)) :
    Corresponds (MetadataOp.run t' p.op) u
      ({ p with seqId := some seqId, created := true } :: pending) := by
  obtain ⟨hpayload, hnumberOf, -⟩ := hshape.fresh hrow
  have hrow' := h.rows_eq_none_iff.mpr hrow
  rcases Table.getOrCreate_cases hcreate with ⟨row, hsome, -⟩ | ⟨-, hseq, hfree, hu⟩
  · exact absurd (hrow.symm.trans hsome) (by simp)
  -- the serial run inserts the same row and writes it in one go
  have hfree' : t'.taken p.name t'.store.nextSeqId = false := by
    rw [h.taken, h.nextSeqId]
    exact hfree
  obtain ⟨u', hu', hrows', hnext', hgroups'⟩ :=
    Table.write_new hrow' (hnumberOf.symm.trans hnumber) hfree' p.now
  have hrun : MetadataOp.run t' p.op = u' := hu'
  have hname : ∀ q ∈ pending, q.created = true → q.name ≠ p.name := fun _ => h.name_ne hrow
  have hrows : u.store.rows
      = Function.update t.store.rows p.name (some (newRow t.store.nextSeqId p.now)) := by rw [hu]
  rw [hrun]
  exact
    { nextSeqId := by rw [hnext', hu, h.nextSeqId]
      groups := by rw [hgroups', hu, h.groups]
      created := by
        intro q hmem hcreated
        rw [hrows, hrows']
        rcases List.mem_cons.mp hmem with rfl | hmem
        · rw [Function.update_self, Function.update_self]
          exact ⟨_, rfl, by rw [hpayload, h.nextSeqId]⟩
        · have hne := hname q hmem hcreated
          rw [Function.update_of_ne hne, Function.update_of_ne hne]
          exact h.created q hmem hcreated
      others := by
        intro n hn
        have hne : n ≠ p.name := fun hsame =>
          hn _ List.mem_cons_self rfl hsame.symm
        rw [hrows, hrows', Function.update_of_ne hne, Function.update_of_ne hne]
        exact h.others n fun q hmem => hn q (List.mem_cons_of_mem _ hmem)
      distinct := by
        rw [List.filter_cons_of_pos rfl, List.map_cons, List.nodup_cons]
        refine ⟨fun hmem => ?_, h.distinct⟩
        obtain ⟨q, hq, hsame⟩ := List.mem_map.mp hmem
        exact hname q (List.mem_of_mem_filter hq) (List.mem_filter.mp hq).2 hsame
      shape := by
        intro q hmem
        rcases List.mem_cons.mp hmem with rfl | hmem
        · refine ⟨hshape.given, fun hnone => ?_, fun _ => by simp⟩
          rw [hrows, Function.update_self] at hnone
          exact absurd hnone (by simp)
        · exact (h.shape q hmem).of_update hrows }

/-- Once a write has written the row that it created, both tables have the same row. -/
lemma Corresponds.settle (h : Corresponds t' t (p :: pending)) (hcreated : p.created = true)
    (hseq : ∀ row ∈ t.store.rows p.name, p.seqId = some row.seqId) {seqId : ℤ}
    (hseqId : p.seqId = some seqId) :
    Corresponds t' ((t.upsert p.name seqId p.payload.field).getD t) pending := by
  obtain ⟨row, hrow, hrow'⟩ := h.created p List.mem_cons_self hcreated
  obtain rfl : row.seqId = seqId := Option.some.inj ((hseq row hrow).symm.trans hseqId)
  have hown := Table.taken_own hrow
  rw [Table.upsert_of_free hown, Option.getD_some]
  have hrows : (t.put p.name (t.upserted p.name row.seqId p.payload.field) t.store.nextSeqId
      hown).store.rows
      = Function.update t.store.rows p.name (some (row.overwrite p.payload.field)) := by
    simp only [Table.put, Table.upserted, hrow, Option.elim_some, Row.overwrite]
  have hdistinct := h.distinct
  rw [List.filter_cons_of_pos hcreated, List.map_cons, List.nodup_cons] at hdistinct
  have hname : ∀ q ∈ pending, q.created = true → q.name ≠ p.name := fun q hmem hq hsame =>
    hdistinct.1 (List.mem_map.mpr ⟨q, List.mem_filter.mpr ⟨hmem, hq⟩, hsame⟩)
  exact
    { nextSeqId := h.nextSeqId
      groups := h.groups
      created := by
        intro q hmem hq
        rw [hrows, Function.update_of_ne (hname q hmem hq)]
        exact h.created q (List.mem_cons_of_mem _ hmem) hq
      others := by
        intro n hn
        rw [hrows]
        by_cases hsame : n = p.name
        · rw [hsame, Function.update_self, hrow']
        · rw [Function.update_of_ne hsame]
          refine h.others n fun q hmem hq hqn => ?_
          rcases List.mem_cons.mp hmem with rfl | hmem
          · exact hsame hqn.symm
          · exact hn q hmem hq hqn
      distinct := hdistinct.2
      shape := fun q hmem => (h.shape q (List.mem_cons_of_mem _ hmem)).of_update hrows }

end Writes

/-! ## Runs -/

/-- The invariant: the table is that of the serial run, but for the rows whose first write is in
flight, and the operations of the serial run and the others in flight are the ones issued. -/
structure Serializes (t₀ : Table) (s : Interleaved) : Prop where
  corresponds : Corresponds (serially t₀ s.serial) s.table s.pending
  operations : (s.serial ++ (s.pending.filter fun p => !p.created).map Pending.op).Perm s.issued

lemma serially_concat (t : Table) (ops : List MetadataOp) (op : MetadataOp) :
    serially t (ops ++ [op]) = op.run (serially t ops) := by
  rw [serially, List.foldl_append]
  rfl

lemma serializes_start (t : Table) : Serializes t (start t) where
  corresponds :=
    { nextSeqId := rfl
      groups := rfl
      created := fun _ hmem => absurd hmem List.not_mem_nil
      others := fun _ _ => rfl
      distinct := List.nodup_nil
      shape := fun _ hmem => absurd hmem List.not_mem_nil }
  operations := List.Perm.refl _

lemma shape_readFor (t : Table) (name : Text) (changes : Metadata) (now : Text) :
    Shape t (readFor t name changes now) where
  given := fun c v hv => by
    have hc : changes.field c = some v := hv
    simp [readFor, Metadata.override, hc]
  fresh := fun hnone => by
    have hread : readAgentMetadata t.store name = Metadata.empty :=
      Table.readAgentMetadata_of_none hnone
    simp only [readFor, hread, Table.empty_override, and_self]
  numbered := fun h => absurd h (by simp [readFor])

section Steps

variable {t₀ : Table} {s s' : Interleaved} {i : ℕ} {p : Pending}

/-- The `i`-th write in flight, and the others. -/
lemma perm_eraseIdx (h : s.pending[i]? = some p) : s.pending.Perm (p :: s.pending.eraseIdx i) := by
  obtain ⟨hi, rfl⟩ := List.getElem?_eq_some_iff.mp h
  exact (List.getElem_cons_eraseIdx_perm hi).symm

/-- The operations in flight, with the `i`-th one in front. -/
lemma operations_eraseIdx (h : s.pending[i]? = some p) :
    ((s.pending.filter fun p => !p.created).map Pending.op).Perm
      ((if p.created then [] else [p.op]) ++
        ((s.pending.eraseIdx i).filter fun p => !p.created).map Pending.op) := by
  have hperm := ((perm_eraseIdx h).filter fun p => !p.created).map Pending.op
  cases hcreated : p.created <;> simpa [hcreated] using hperm

lemma Serializes.read (hs : Serializes t₀ s) (name : Text) (changes : Metadata) (now : Text)
    (hstep : step s (.read name changes now) = some s') : Serializes t₀ s' := by
  obtain rfl := Option.some.inj hstep
  refine ⟨?_, ?_⟩
  · exact (hs.corresponds.add rfl (shape_readFor s.table name changes now)).perm
      (List.perm_append_singleton _ _).symm
  · simp only [List.filter_append, List.map_append, ← List.append_assoc]
    exact hs.operations.append_right _

lemma Serializes.update (hs : Serializes t₀ s) (op : UpdateOp)
    (hguard : Undisturbed s (.update op)) (hstep : step s (.update op) = some s') :
    Serializes t₀ s' := by
  obtain rfl := Option.some.inj hstep
  refine ⟨?_, ?_⟩
  · rw [serially_concat]
    exact hs.corresponds.runUpdate op fun p hmem hcreated row hrow =>
      hguard p.name p hmem hcreated rfl row hrow
  · have hswap : ((s.serial ++ [MetadataOp.update op])
        ++ (s.pending.filter fun p => !p.created).map Pending.op).Perm
        ((s.serial ++ (s.pending.filter fun p => !p.created).map Pending.op)
          ++ [MetadataOp.update op]) := by
      simp only [List.append_assoc]
      exact (List.perm_append_comm).append_left s.serial
    exact hswap.trans (hs.operations.append_right _)

lemma Serializes.number (hs : Serializes t₀ s) (hstep : step s (.number i) = some s') :
    Serializes t₀ s' := by
  obtain ⟨p, hp, hstep⟩ := Option.bind_eq_some_iff.mp hstep
  split_ifs at hstep with hnumber
  obtain rfl := Option.some.inj hstep
  rw [Option.isNone_iff_eq_none] at hnumber
  have hshape := hs.corresponds.shape p (List.mem_of_getElem? hp)
  have hcreated : p.created = false :=
    Bool.eq_false_iff.mpr fun h => hshape.numbered h hnumber
  have hcorresponds := hs.corresponds.perm (perm_eraseIdx hp)
  have hoperations := operations_eraseIdx hp
  rw [hcreated] at hoperations
  unfold numbered
  rcases hget : s.table.getOrCreate p.name p.now with _ | ⟨u, seqId⟩
  · -- it raises, and so it does in the serial run
    refine ⟨?_, ?_⟩
    · rw [serially_concat]
      have hnone := (Table.getOrCreate_eq_none hget).1
      have hsame : MetadataOp.run (serially t₀ s.serial) p.op = serially t₀ s.serial := by
        obtain ⟨-, hnumberOf, -⟩ := hshape.fresh hnone
        refine Table.write_fails (hs.corresponds.rows_eq_none_iff.mpr hnone)
          (hnumberOf.symm.trans hnumber) ?_ p.now
        rw [hs.corresponds.taken, hs.corresponds.nextSeqId]
        exact (Table.getOrCreate_eq_none hget).2
      rw [hsame]
      exact hcorresponds.drop hcreated
    · refine List.Perm.trans ?_ hs.operations
      rw [List.append_assoc]
      exact hoperations.symm.append_left s.serial
  · cases hrow : s.table.store.rows p.name with
    | none =>
      simp only [Option.isNone_none, if_true]
      refine ⟨?_, ?_⟩
      · rw [serially_concat]
        exact ((hcorresponds.drop hcreated).create hshape hnumber hrow hget).perm
          (List.perm_append_singleton _ _).symm
      · refine List.Perm.trans ?_ hs.operations
        simp only [List.filter_append, List.append_assoc]
        simpa using hoperations.symm.append_left s.serial
    | some row =>
      -- somebody else has created the row
      rcases Table.getOrCreate_cases hget with ⟨row', -, rfl, -⟩ | ⟨hnone, -⟩
      · simp only [Option.isNone_some, Bool.false_eq_true, if_false]
        refine ⟨?_, ?_⟩
        · have hshape' : Shape s.table { p with seqId := some seqId, created := false } := by
            refine ⟨hshape.given, fun hnone => ?_, fun h => absurd h (by simp)⟩
            rw [hrow] at hnone
            exact absurd hnone (by simp)
          exact ((hcorresponds.drop hcreated).add rfl hshape').perm
            (List.perm_append_singleton _ _).symm
        · refine List.Perm.trans ?_ hs.operations
          refine List.Perm.append_left s.serial ?_
          simp only [List.filter_append, List.map_append]
          exact (List.perm_append_singleton _ _).trans hoperations.symm
      · rw [hrow] at hnone
        exact absurd hnone (by simp)

lemma Serializes.write (hs : Serializes t₀ s) (hguard : Undisturbed s (.write i))
    (hstep : step s (.write i) = some s') : Serializes t₀ s' := by
  obtain ⟨p, hp, hstep⟩ := Option.bind_eq_some_iff.mp hstep
  obtain ⟨seqId, hseqId, rfl⟩ := Option.map_eq_some_iff.mp hstep
  have hcorresponds := hs.corresponds.perm (perm_eraseIdx hp)
  have hoperations := operations_eraseIdx hp
  have hcase := hguard p hp
  unfold written
  cases hcreated : p.created with
  | true =>
    simp only [hcreated, if_true, List.nil_append] at hoperations hcase ⊢
    exact ⟨hcorresponds.settle hcreated hcase hseqId,
      (hoperations.symm.append_left s.serial).trans hs.operations⟩
  | false =>
    simp only [hcreated, Bool.false_eq_true, if_false] at hoperations hcase ⊢
    refine ⟨?_, ?_⟩
    · rw [serially_concat]
      have hshape := hs.corresponds.shape p (List.mem_of_getElem? hp)
      refine (hcorresponds.drop hcreated).write hshape hseqId fun row hrow => ?_
      obtain ⟨hholds, hcommute⟩ := hcase row hrow
      refine ⟨hholds, fun q hmem hq hname => ?_⟩
      exact hcommute q (List.mem_of_mem_eraseIdx hmem) hq hname row hrow
    · refine List.Perm.trans ?_ hs.operations
      rw [List.append_assoc]
      exact hoperations.symm.append_left s.serial

lemma step_serializes {a : Transaction} (hs : Serializes t₀ s) (hguard : Undisturbed s a)
    (hstep : step s a = some s') : Serializes t₀ s' := by
  cases a with
  | read name changes now => exact hs.read name changes now hstep
  | number i => exact hs.number hstep
  | write i => exact hs.write hguard hstep
  | update op => exact hs.update op hguard hstep

/-- **No write of metadata is lost.**  Every undisturbed interleaving that has come to an end
leaves the rows that its operations leave in some order, one after another. -/
theorem no_lost_update {as : List Transaction} (hrun : Run step Undisturbed (start t₀) as s)
    (hdone : s.pending = []) :
    ∃ order, order.Perm s.issued ∧
      ∀ n, s.table.store.rows n = (serially t₀ order).store.rows n := by
  have hs : Serializes t₀ s :=
    hrun.invariant (P := Serializes t₀) (fun hs hguard hstep => step_serializes hs hguard hstep)
      (serializes_start t₀)
  refine ⟨s.serial, ?_, fun n => ?_⟩
  · have hoperations := hs.operations
    rwa [hdone, List.filter_nil, List.map_nil, List.append_nil] at hoperations
  · refine (hs.corresponds.others n fun p hmem => ?_).symm
    rw [hdone] at hmem
    exact absurd hmem List.not_mem_nil

end Steps

/-! ## A group that is lost -/

/-- A container that runs, in no group. -/
def webTable : Table :=
  (Table.empty.write "web-0001".toList
    { seqId := none, agentSeqId := none,
      field := fun c => if c = .state then some (.text "STOPPED".toList) else none } [])

/-- The list of containers notes that it runs. -/
def noteRunning : Metadata :=
  { seqId := none, agentSeqId := none,
    field := fun c => if c = .state then some (.text "RUNNING".toList) else none }

def assignLab : UpdateOp := .assign "lab".toList ["web-0001".toList]

/-- Between the two transactions of the note the container is put into a group. -/
def overlapping : List Transaction :=
  [.read "web-0001".toList noteRunning [], .update assignLab, .write 0]

def groupOf (t : Table) : Option Value :=
  (t.store.rows "web-0001".toList).map fun row => row.field .agentGroup

lemma perm_pair {α : Type} {a b : α} {l : List α} (h : l.Perm [a, b]) :
    l = [a, b] ∨ l = [b, a] := by
  obtain ⟨x, y, rfl⟩ := List.length_eq_two.mp h.length_eq
  have hx : x ∈ [a, b] := h.mem_iff.mp List.mem_cons_self
  simp only [List.mem_cons, List.not_mem_nil, or_false] at hx
  rcases hx with rfl | rfl
  · exact .inl (by rw [List.singleton_perm_singleton.mp ((List.perm_cons x).mp h)])
  · have hy : [y].Perm [a] := (List.perm_cons x).mp (h.trans (List.Perm.swap x a []))
    exact .inr (by rw [List.singleton_perm_singleton.mp hy])

/-- **The assignment is lost.**  In whatever order the note and the assignment run one after
another, the container is in the group at the end; where they overlap, it is in none. -/
theorem lost_update :
    ∃ s, Run step anyStep (start webTable) overlapping s ∧ s.pending = [] ∧
      ¬∃ order, order.Perm s.issued ∧
        ∀ n, s.table.store.rows n = (serially webTable order).store.rows n := by
  have hexec : (exec step (start webTable) overlapping).map
      (fun s => (groupOf s.table, s.pending.isEmpty)) = some (some .null, true) := by
    decide +kernel
  obtain ⟨s, hs, hend⟩ := Option.map_eq_some_iff.mp hexec
  rw [Prod.mk.injEq, List.isEmpty_iff] at hend
  have hissued : s.issued
      = [.write "web-0001".toList noteRunning [], .update assignLab] := by
    obtain ⟨s₁, h₁, hs⟩ := Option.bind_eq_some_iff.mp hs
    obtain ⟨s₂, h₂, hs⟩ := Option.bind_eq_some_iff.mp hs
    obtain ⟨s₃, h₃, hs⟩ := Option.bind_eq_some_iff.mp hs
    obtain rfl := Option.some.inj hs
    obtain rfl := Option.some.inj h₁
    obtain rfl := Option.some.inj h₂
    obtain rfl := Option.some.inj h₃
    rfl
  refine ⟨s, run_of_exec hs, hend.2, ?_⟩
  rintro ⟨order, horder, hrows⟩
  have hgroup : groupOf (serially webTable order) = some .null := by
    rw [← hend.1, groupOf, groupOf, hrows]
  have hserial : groupOf (serially webTable order) = some (.text "lab".toList) := by
    rw [hissued] at horder
    rcases perm_pair horder with rfl | rfl
    · decide +kernel
    · decide +kernel
  rw [hserial] at hgroup
  exact absurd hgroup (by simp)

/-- The assignment comes first. -/
def oneAfterAnother : List Transaction :=
  [.update assignLab, .read "web-0001".toList noteRunning [], .write 0]

/-- A write that comes right after its read still holds. -/
lemma stillHolds_readFor {t : Table} {name : Text} {changes : Metadata} {row : Row}
    (hrow : t.store.rows name = some row) (hchanges : changes.seqId = none) (now : Text) :
    StillHolds (readFor t name changes now) row := by
  have hread : readAgentMetadata t.store name
      = ⟨some (some row.seqId), some (some row.seqId), fun c => some (row.field c)⟩ := by
    simp only [readAgentMetadata, hrow]
  refine ⟨fun c hc v hv => ?_, ?_⟩
  · have hc : changes.field c = none := hc
    have hv : (changes.field c).or (some (row.field c)) = some v := by
      simpa [readFor, hread, Metadata.override] using hv
    rw [hc, Option.none_or, Option.some.injEq] at hv
    exact hv
  · simp [readFor, hread, Metadata.override, Table.numberOf, Table.numberFor, hchanges]

lemma run_oneAfterAnother {s : Interleaved}
    (h : exec step (start webTable) oneAfterAnother = some s) :
    Run step Undisturbed (start webTable) oneAfterAnother s := by
  obtain ⟨s₁, h₁, hrest⟩ := Option.bind_eq_some_iff.mp h
  obtain ⟨s₂, h₂, hrest⟩ := Option.bind_eq_some_iff.mp hrest
  obtain ⟨s₃, h₃, hend⟩ := Option.bind_eq_some_iff.mp hrest
  obtain rfl := Option.some.inj hend
  refine .cons ?_ h₁ (.cons trivial h₂ (.cons ?_ h₃ (.nil _)))
  · intro n p hmem
    exact absurd hmem List.not_mem_nil
  · obtain rfl := Option.some.inj h₁
    obtain rfl := Option.some.inj h₂
    intro p hp row hrow
    obtain rfl := Option.some.inj hp
    refine ⟨stillHolds_readFor hrow rfl [], fun q hmem hq => ?_⟩
    rw [List.mem_singleton.mp hmem] at hq
    exact absurd hq (by simp [readFor])

theorem no_lost_update_oneAfterAnother :
    ∃ s, exec step (start webTable) oneAfterAnother = some s ∧
      ∃ order, order.Perm s.issued ∧
        ∀ n, s.table.store.rows n = (serially webTable order).store.rows n := by
  have hexec : (exec step (start webTable) oneAfterAnother).map
      (fun s => s.pending.isEmpty) = some true := by decide +kernel
  obtain ⟨s, hs, hend⟩ := Option.map_eq_some_iff.mp hexec
  exact ⟨s, hs, no_lost_update (run_oneAfterAnother hs) (List.isEmpty_iff.mp hend)⟩

end Interleaved

end Habeny.Agents
