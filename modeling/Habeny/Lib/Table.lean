import Mathlib.Data.List.Flatten
import Mathlib.Data.List.Nodup
import Mathlib.Data.List.Pairwise

/-!
# Tables with unique columns

Each row of a table takes some keys, its values in the columns that are unique; no two rows take
the same one.  A value that may be missing takes no key where it is.  Inserting a row that takes
a key which is taken fails, as does changing rows so that two take the same; rows may be deleted,
and changed in any way that keeps their keys.
-/

namespace Habeny.Lib

variable {R R' K : Type*}

/-- Rows no two of which take the same key. -/
structure Table (R : Type*) (keys : R → List K) where
  rows : List R
  unique : (rows.flatMap keys).Nodup

namespace Table

variable {keys : R → List K} {keys' : R' → List K} {t t' : Table R keys} {r r' : R}

def empty (keys : R → List K) : Table R keys := ⟨[], List.nodup_nil⟩

/-- The keys that are taken. -/
def taken (t : Table R keys) : List K := t.rows.flatMap keys

lemma mem_taken {k : K} : k ∈ t.taken ↔ ∃ r ∈ t.rows, k ∈ keys r := List.mem_flatMap

/-- A row that takes a key is the only one that does. -/
lemma row_unique (t : Table R keys) {k : K} (hr : r ∈ t.rows) (hr' : r' ∈ t.rows)
    (hk : k ∈ keys r) (hk' : k ∈ keys r') : r = r' := by
  by_contra hne
  have hdisjoint := (List.nodup_flatMap.mp t.unique).2
  have : Std.Symm (Function.onFun List.Disjoint keys) := ⟨fun _ _ h _ hk hk' => h hk' hk⟩
  exact hdisjoint.forall hr hr' hne hk hk'

/-- `INSERT` -/
def insert [DecidableEq K] (t : Table R keys) (r : R) : Option (Table R keys) :=
  if h : (keys r).Nodup ∧ ∀ k ∈ keys r, k ∉ t.taken then
    some
      { rows := t.rows ++ [r]
        unique := by
          rw [List.flatMap_append, List.flatMap_singleton, List.nodup_append]
          exact ⟨t.unique, h.1, fun k hk k' hk' heq => h.2 k' hk' (heq ▸ hk)⟩ }
  else none

lemma insert_rows [DecidableEq K] (h : t.insert r = some t') : t'.rows = t.rows ++ [r] := by
  unfold insert at h
  split_ifs at h
  cases h
  rfl

lemma insert_taken [DecidableEq K] (h : t.insert r = some t') : t'.taken = t.taken ++ keys r := by
  rw [taken, insert_rows h, List.flatMap_append, List.flatMap_singleton]
  rfl

lemma insert_eq_some [DecidableEq K] (hnodup : (keys r).Nodup) (hfree : ∀ k ∈ keys r, k ∉ t.taken) :
    ∃ t', t.insert r = some t' := by
  rw [insert, dif_pos ⟨hnodup, hfree⟩]
  exact ⟨_, rfl⟩

/-- Change every row, with the keys as they are. -/
def map (t : Table R keys) (f : R → R') (hf : ∀ r, keys' (f r) = keys r) : Table R' keys' where
  rows := t.rows.map f
  unique := by
    simp only [List.flatMap_map, hf]
    exact t.unique

@[simp] lemma map_rows (f : R → R') (hf : ∀ r, keys' (f r) = keys r) :
    (t.map f hf).rows = t.rows.map f := rfl

@[simp] lemma map_taken (f : R → R') (hf : ∀ r, keys' (f r) = keys r) :
    (t.map f hf).taken = t.taken := by
  simp only [taken, map_rows, List.flatMap_map, hf]

/-- `UPDATE` -/
def update [DecidableEq K] (t : Table R keys) (f : R → R) : Option (Table R keys) :=
  if h : ((t.rows.map f).flatMap keys).Nodup then some ⟨t.rows.map f, h⟩ else none

lemma update_rows [DecidableEq K] {f : R → R} (h : t.update f = some t') :
    t'.rows = t.rows.map f := by
  unfold update at h
  split_ifs at h
  cases h
  rfl

/-- `DELETE`, of the rows that are not to be kept. -/
def filter (t : Table R keys) (p : R → Bool) : Table R keys where
  rows := t.rows.filter p
  unique := t.unique.sublist (List.filter_sublist.flatMap keys)

@[simp] lemma filter_rows (p : R → Bool) : (t.filter p).rows = t.rows.filter p := rfl

end Table

end Habeny.Lib
