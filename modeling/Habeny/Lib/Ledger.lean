import Mathlib.Algebra.GroupWithZero.Nat
import Mathlib.Data.List.Basic

/-!
# Ledgers that keep one entry for each kind

An entry is made when something of its kind happens for the first time; what happens again only
changes it.  `tally` is what such an entry can say of all that has happened: what was the first
and the last, and how many there were.
-/

namespace Habeny.Lib

variable {A R K : Type*}

/-! ## What has happened -/

/-- What is remembered of a list that is not empty. -/
structure Tally (A : Type*) where
  first : A
  count : ℕ
  last : A

def tally : List A → Option (Tally A)
  | [] => none
  | a :: as => some { first := a, count := as.length + 1, last := as.getLastD a }

/-- Something happens again. -/
def Tally.again (t : Tally A) (a : A) : Tally A := { t with count := t.count + 1, last := a }

@[simp] lemma tally_nil : tally ([] : List A) = none := rfl

lemma tally_concat (as : List A) (a : A) :
    tally (as ++ [a]) = some (match tally as with
      | none => { first := a, count := 1, last := a }
      | some t => t.again a) := by
  cases as with
  | nil => rfl
  | cons b as => simp [tally, Tally.again]

@[simp] lemma tally_eq_none_iff {as : List A} : tally as = none ↔ as = [] := by
  cases as <;> simp [tally]

/-! ## The entries -/

section

variable (key : R → K) (again : R → R) (new : R)

/-- Change the first entry with the key of a new one, or add this. -/
def enter [DecidableEq K] : List R → List R
  | [] => [new]
  | r :: rows => if key r = key new then again r :: rows else r :: enter rows

/-- The same, of entries that all have the key. -/
def enterFound : List R → List R
  | [] => [new]
  | r :: rows => again r :: rows

variable {key again new} [DecidableEq K] {rows : List R} {k : K}

lemma filter_enter_of_ne (hkeep : ∀ r, key (again r) = key r) (hk : key new ≠ k) :
    (enter key again new rows).filter (fun r => decide (key r = k)) =
      rows.filter fun r => decide (key r = k) := by
  induction rows with
  | nil => simp [enter, hk]
  | cons r rows ih =>
    rw [enter]
    split
    · next heq =>
      have hr : key r ≠ k := heq ▸ hk
      rw [List.filter_cons_of_neg (by simpa [hkeep] using hr),
        List.filter_cons_of_neg (by simpa using hr)]
    · rw [List.filter_cons, List.filter_cons, ih]

lemma filter_enter (hkeep : ∀ r, key (again r) = key r) (hk : key new = k) :
    (enter key again new rows).filter (fun r => decide (key r = k)) =
      enterFound again new (rows.filter fun r => decide (key r = k)) := by
  induction rows with
  | nil => simp [enter, enterFound, hk]
  | cons r rows ih =>
    rw [enter]
    split
    · next heq =>
      have hr : key r = k := heq.trans hk
      rw [List.filter_cons_of_pos (by simpa [hkeep] using hr),
        List.filter_cons_of_pos (by simpa using hr), enterFound]
    · next hne =>
      have hr : key r ≠ k := fun h => hne (h.trans hk.symm)
      rw [List.filter_cons_of_neg (by simpa using hr), ih,
        List.filter_cons_of_neg (by simpa using hr)]

/-- Entries are of the kinds that there were, or of the new one. -/
lemma forall_mem_enter {P : R → Prop} (hrows : ∀ r ∈ rows, P r) (hagain : ∀ r, P r → P (again r))
    (hnew : P new) : ∀ r ∈ enter key again new rows, P r := by
  induction rows with
  | nil => simpa [enter] using hnew
  | cons r rows ih =>
    rw [enter]
    have hr := hrows r (by simp)
    have hrest := fun r' hr' => hrows r' (List.mem_cons_of_mem r hr')
    split
    · exact List.forall_mem_cons.mpr ⟨hagain r hr, hrest⟩
    · exact List.forall_mem_cons.mpr ⟨hr, ih hrest⟩

/-- Entries are counted key by key. -/
lemma countP_eq_sum {ks : List K} (hks : ks.Nodup) (p : R → Bool) {rows : List R}
    (hrows : ∀ r ∈ rows, key r ∈ ks) :
    rows.countP p = (ks.map fun k => (rows.filter fun r => decide (key r = k)).countP p).sum := by
  induction ks generalizing rows with
  | nil =>
    have hnone : rows = [] := List.eq_nil_iff_forall_not_mem.mpr fun r hr =>
      absurd (hrows r hr) List.not_mem_nil
    rw [hnone]
    rfl
  | cons k ks ih =>
    rw [List.nodup_cons] at hks
    have hkeys : ∀ r ∈ rows.filter (fun r => !decide (key r = k)), key r ∈ ks := by
      intro r hr
      obtain ⟨hmem, hne⟩ := List.mem_filter.mp hr
      rcases List.mem_cons.mp (hrows r hmem) with heq | hmem
      · simp [heq] at hne
      · exact hmem
    have hrest := ih hks.2 hkeys
    have hsame : ∀ k' ∈ ks, ((rows.filter fun r => !decide (key r = k)).filter fun r =>
        decide (key r = k')) = rows.filter fun r => decide (key r = k') := by
      intro k' hk'
      rw [List.filter_filter]
      refine List.filter_congr fun r _ => ?_
      by_cases hr : key r = k'
      · have hne : key r ≠ k := fun heq => hks.1 (heq ▸ hr ▸ hk')
        simp [hr, hr ▸ hne]
      · simp [hr]
    rw [List.map_cons, List.sum_cons, ← List.map_congr_left fun k' hk' =>
      congrArg (List.countP p) (hsame k' hk'), ← hrest]
    exact List.countP_eq_countP_filter_add rows p fun r => decide (key r = k)

end

end Habeny.Lib
