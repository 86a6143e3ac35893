import Habeny.Agents.Metadata

/-!
# The table of containers with its constraint

No two rows have the same number: `agents.seq_id` is `UNIQUE`.  A row that would break that is
not written, and its transaction raises and is rolled back.  What is written is what
`getOrCreateAgentSeqId` and `upsertAgent` give.
-/

namespace Habeny.Agents

open Habeny.Lib

/-- The store with the names that have rows, and its constraint. -/
structure Table where
  store : Store
  known : List Text
  covers : ∀ n, (store.rows n).isSome = true → n ∈ known
  unique : ∀ n n' r r', store.rows n = some r → store.rows n' = some r' → r.seqId = r'.seqId →
    n = n'

namespace Table

/-- A new database. -/
def empty : Table where
  store :=
    { rows := fun _ => none, nextSeqId := 1, owners := fun _ => none, groups := fun _ => false }
  known := []
  covers := fun _ h => absurd h (by simp)
  unique := fun _ _ _ _ h => absurd h (by simp)

/-- Another row has the number. -/
def taken (t : Table) (name : Text) (seqId : ℤ) : Bool :=
  t.known.any fun n => decide (n ≠ name) && (t.store.rows n).any fun r => decide (r.seqId = seqId)

lemma taken_eq_false_iff {t : Table} {name : Text} {seqId : ℤ} :
    t.taken name seqId = false ↔
      ∀ n r, n ≠ name → t.store.rows n = some r → r.seqId ≠ seqId := by
  simp only [taken, List.any_eq_false, Bool.and_eq_true, decide_eq_true_eq, not_and,
    Option.any_eq_true]
  constructor
  · intro h n r hn hr hseq
    exact h n (t.covers n (by rw [hr]; rfl)) hn ⟨r, hr, hseq⟩
  · rintro h n - hn ⟨r, hr, hseq⟩
    exact h n r hn hr hseq

/-- The names with rows once a name has one. -/
def note (known : List Text) (name : Text) : List Text :=
  if name ∈ known then known else known ++ [name]

lemma mem_note {known : List Text} {name n : Text} :
    n ∈ note known name ↔ n ∈ known ∨ n = name := by
  unfold note
  split_ifs with h
  · constructor
    · exact .inl
    · rintro (hn | rfl)
      · exact hn
      · exact h
  · simp

section Put

variable {t : Table} {name : Text} {row : Row}

lemma covers_put (n : Text) (h : (Function.update t.store.rows name (some row) n).isSome = true) :
    n ∈ note t.known name := by
  rw [mem_note]
  by_cases hn : n = name
  · exact .inr hn
  · rw [Function.update_of_ne hn] at h
    exact .inl (t.covers n h)

lemma unique_put (hfree : t.taken name row.seqId = false) (n n' : Text) (r r' : Row)
    (hr : Function.update t.store.rows name (some row) n = some r)
    (hr' : Function.update t.store.rows name (some row) n' = some r')
    (hseq : r.seqId = r'.seqId) : n = n' := by
  rw [taken_eq_false_iff] at hfree
  by_cases hn : n = name <;> by_cases hn' : n' = name
  · rw [hn, hn']
  · subst hn
    rw [Function.update_self] at hr
    rw [Function.update_of_ne hn'] at hr'
    obtain rfl := Option.some.inj hr
    exact absurd hseq.symm (hfree n' r' hn' hr')
  · subst hn'
    rw [Function.update_self] at hr'
    rw [Function.update_of_ne hn] at hr
    obtain rfl := Option.some.inj hr'
    exact absurd hseq (hfree n r hn hr)
  · rw [Function.update_of_ne hn] at hr
    rw [Function.update_of_ne hn'] at hr'
    exact t.unique n n' r r' hr hr' hseq

end Put

/-- Write a row whose number no other row has. -/
def put (t : Table) (name : Text) (row : Row) (nextSeqId : ℤ)
    (hfree : t.taken name row.seqId = false) : Table where
  store := { t.store with rows := Function.update t.store.rows name (some row), nextSeqId }
  known := note t.known name
  covers := covers_put
  unique := unique_put hfree

/-- A table whose rows changed and kept their numbers. -/
def withRows (t : Table) (s : Store)
    (h : ∀ n, (s.rows n).map Row.seqId = (t.store.rows n).map Row.seqId) : Table where
  store := s
  known := t.known
  covers := fun n hn => t.covers n (by
    rw [← Option.isSome_map, ← h n, Option.isSome_map]
    exact hn)
  unique := fun n n' r r' hr hr' hseq => by
    obtain ⟨r₀, hr₀, hseq₀⟩ := Option.map_eq_some_iff.mp ((h n).symm.trans (by rw [hr]; rfl))
    obtain ⟨r₁, hr₁, hseq₁⟩ := Option.map_eq_some_iff.mp ((h n').symm.trans (by rw [hr']; rfl))
    exact t.unique n n' r₀ r₁ hr₀ hr₁ (hseq₀.trans (hseq.trans hseq₁.symm))

/-! ## The transactions -/

/-- `get_or_create_agent_seq_id`; nothing when the row cannot be inserted. -/
def getOrCreate (t : Table) (name now : Text) : Option (Table × ℤ) :=
  match t.store.rows name with
  | some row => some (t, row.seqId)
  | none =>
    if h : t.taken name (newRow t.store.nextSeqId now).seqId = false then
      some (t.put name (newRow t.store.nextSeqId now) (t.store.nextSeqId + 1) h, t.store.nextSeqId)
    else none

/-- The row that an upsert of a name leaves. -/
def upserted (t : Table) (name : Text) (seqId : ℤ) (field : Column → Option Value) : Row :=
  { seqId, field := fun c => (field c).getD ((t.store.rows name).elim .null (·.field c)) }

/-- `upsert_agent`; nothing when another row has the number. -/
def upsert (t : Table) (name : Text) (seqId : ℤ) (field : Column → Option Value) : Option Table :=
  if h : t.taken name (t.upserted name seqId field).seqId = false then
    some (t.put name (t.upserted name seqId field) t.store.nextSeqId h)
  else none

/-- The number of a dictionary, if it has one. -/
def numberOf (metadata : Metadata) : Option ℤ := (metadata.seqId.or metadata.agentSeqId).join

/-- `write_agent_metadata`: nothing when it raises before it writes a number, and else the table
that it leaves.  It reads, asks for a number if it has none, and writes. -/
def write (t : Table) (name : Text) (metadata : Metadata) (now : Text) : Table :=
  let payload := (readAgentMetadata t.store name).override metadata
  match numberOf payload with
  | some seqId => (t.upsert name seqId payload.field).getD t
  | none =>
    match t.getOrCreate name now with
    | none => t
    | some (t', seqId) => (t'.upsert name seqId payload.field).getD t'

/-! ## What they do -/

/-- What is inserted and updated is what the store's own functions give. -/
lemma getOrCreate_store {t t' : Table} {name now : Text} {seqId : ℤ}
    (h : t.getOrCreate name now = some (t', seqId)) :
    getOrCreateAgentSeqId t.store name now = (t'.store, seqId) := by
  unfold getOrCreate at h
  cases hrow : t.store.rows name with
  | some row =>
    simp only [hrow, Option.some.injEq, Prod.mk.injEq] at h
    obtain ⟨rfl, rfl⟩ := h
    rw [getOrCreateAgentSeqId_of_some hrow]
  | none =>
    simp only [hrow] at h
    split_ifs at h with hfree
    · rw [Option.some.injEq, Prod.mk.injEq] at h
      obtain ⟨rfl, rfl⟩ := h
      simp only [getOrCreateAgentSeqId, hrow, put]

lemma upsert_store {t t' : Table} {name : Text} {seqId : ℤ} {field : Column → Option Value}
    (h : t.upsert name seqId field = some t') :
    t'.store = upsertAgent t.store name seqId field := by
  unfold upsert at h
  split_ifs at h with hfree
  · obtain rfl := Option.some.inj h
    simp only [put, upserted, upsertAgent]
    cases t.store.rows name <;> rfl

/-- Asking for a number finds the row or inserts the next one. -/
lemma getOrCreate_cases {t t' : Table} {name now : Text} {seqId : ℤ}
    (h : t.getOrCreate name now = some (t', seqId)) :
    (∃ row, t.store.rows name = some row ∧ t' = t ∧ seqId = row.seqId) ∨
      (t.store.rows name = none ∧ seqId = t.store.nextSeqId ∧
        t.taken name t.store.nextSeqId = false ∧
        t'.store = { t.store with
          rows := Function.update t.store.rows name (some (newRow t.store.nextSeqId now))
          nextSeqId := t.store.nextSeqId + 1 }) := by
  unfold getOrCreate at h
  cases hrow : t.store.rows name with
  | some row =>
    simp only [hrow, Option.some.injEq, Prod.mk.injEq] at h
    exact .inl ⟨row, rfl, h.1.symm, h.2.symm⟩
  | none =>
    simp only [hrow] at h
    split_ifs at h with hfree
    · rw [Option.some.injEq, Prod.mk.injEq] at h
      obtain ⟨rfl, rfl⟩ := h
      exact .inr ⟨rfl, rfl, hfree, rfl⟩

lemma upsert_eq_none_iff {t : Table} {name : Text} {seqId : ℤ} {field : Column → Option Value} :
    t.upsert name seqId field = none ↔ t.taken name seqId = true := by
  unfold upsert
  split_ifs with hfree
  · simp only [false_iff, Bool.not_eq_true]
    exact hfree
  · simp only [true_iff]
    exact Bool.not_eq_false _ ▸ hfree

/-- A dictionary that is read of nothing is what it is overridden with. -/
@[simp] lemma empty_override (metadata : Metadata) :
    Metadata.empty.override metadata = metadata := by
  simp [Metadata.empty, Metadata.override]

lemma readAgentMetadata_of_none {s : Store} {name : Text} (h : s.rows name = none) :
    readAgentMetadata s name = .empty := by
  simp only [readAgentMetadata, h]

/-- The number that a write gives to a row that is there: its own, unless the dictionary has one
under the row's own key. -/
def numberFor (metadata : Metadata) (row : Row) : ℤ := metadata.seqId.join.getD row.seqId

/-- **A write to a row that is there overwrites the given columns of it.** -/
lemma write_of_some {t : Table} {name : Text} {row : Row} (h : t.store.rows name = some row)
    (metadata : Metadata) (now : Text) :
    t.write name metadata now
      = (t.upsert name (numberFor metadata row)
          fun c => (metadata.field c).or (some (row.field c))).getD t := by
  have hread : readAgentMetadata t.store name
      = ⟨some (some row.seqId), some (some row.seqId), fun c => some (row.field c)⟩ := by
    simp only [readAgentMetadata, h]
  unfold write
  simp only [hread, Metadata.override, numberOf, numberFor]
  rcases metadata.seqId with _ | _ | seqId
  · rfl
  · -- the row's own key is there without a number
    simp only [Option.some_or, Option.join_some, getOrCreate, h]
    rfl
  · rfl

/-- A row's own number is free for it. -/
lemma taken_own {t : Table} {name : Text} {row : Row} (h : t.store.rows name = some row) :
    t.taken name row.seqId = false :=
  taken_eq_false_iff.mpr fun n r hn hr hseq => hn (t.unique n name r row hr h hseq)

lemma upsert_of_free {t : Table} {name : Text} {seqId : ℤ} {field : Column → Option Value}
    (h : t.taken name seqId = false) :
    t.upsert name seqId field
      = some (t.put name (t.upserted name seqId field) t.store.nextSeqId h) :=
  dif_pos h

lemma getOrCreate_eq_none {t : Table} {name now : Text} (h : t.getOrCreate name now = none) :
    t.store.rows name = none ∧ t.taken name t.store.nextSeqId = true := by
  unfold getOrCreate at h
  cases hrow : t.store.rows name with
  | some row => simp [hrow] at h
  | none =>
    simp only [hrow] at h
    split_ifs at h with hfree
    exact ⟨rfl, Bool.not_eq_false _ ▸ hfree⟩

/-- A first write of a container that gets no number changes nothing. -/
lemma write_fails {t : Table} {name : Text} {metadata : Metadata}
    (h : t.store.rows name = none) (hnumber : numberOf metadata = none)
    (htaken : t.taken name t.store.nextSeqId = true) (now : Text) :
    t.write name metadata now = t := by
  have hcreate : t.getOrCreate name now = none := by
    simp only [getOrCreate, h]
    exact dif_neg (by simpa [newRow] using htaken)
  unfold write
  simp only [readAgentMetadata_of_none h, empty_override, hnumber, hcreate]

/-- **A first write of a container gives it the next number, if no row has that.** -/
lemma write_new {t : Table} {name : Text} {metadata : Metadata}
    (h : t.store.rows name = none) (hnumber : numberOf metadata = none)
    (hfree : t.taken name t.store.nextSeqId = false) (now : Text) :
    ∃ t', t.write name metadata now = t' ∧
      t'.store.rows = Function.update t.store.rows name
        (some ((newRow t.store.nextSeqId now).overwrite metadata.field)) ∧
      t'.store.nextSeqId = t.store.nextSeqId + 1 ∧ t'.store.groups = t.store.groups := by
  have hcreate : t.getOrCreate name now = some
      (t.put name (newRow t.store.nextSeqId now) (t.store.nextSeqId + 1) hfree,
        t.store.nextSeqId) := by
    simp only [getOrCreate, h]
    exact dif_pos hfree
  have hrow : (t.put name (newRow t.store.nextSeqId now) (t.store.nextSeqId + 1)
      hfree).store.rows name = some (newRow t.store.nextSeqId now) := Function.update_self ..
  refine ⟨_, rfl, ?_⟩
  unfold write
  simp only [readAgentMetadata_of_none h, empty_override, hnumber, hcreate]
  have hown := taken_own hrow
  rw [show (newRow t.store.nextSeqId now).seqId = t.store.nextSeqId from rfl] at hown
  rw [upsert_of_free hown, Option.getD_some]
  refine ⟨?_, rfl, rfl⟩
  simp only [put, Function.update_idem]
  congr 2
  simp only [upserted, Function.update_self, Option.elim_some]
  rfl

end Table

end Habeny.Agents
