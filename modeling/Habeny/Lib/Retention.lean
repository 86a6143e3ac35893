import Mathlib.Data.List.AList
import Mathlib.Data.List.Sort

/-!
# Keeping the greatest keys of a store

A store that keeps its `k` greatest keys: the keys are sorted, the greatest first, and what
stands after the first `k` is removed.  Whether a key stays depends only on its rank, the number
of keys greater than it.
-/

namespace Habeny.Lib

variable {K V : Type}

/-- What erasing keys leaves. -/
lemma lookup_eraseAll [DecidableEq K] (keys : List K) (store : AList fun _ : K => V) (a : K) :
    (keys.foldl (fun kept key => kept.erase key) store).lookup a =
      if a ∈ keys then none else store.lookup a := by
  induction keys generalizing store with
  | nil => simp
  | cons b keys ih =>
    rw [List.foldl_cons, ih]
    by_cases hmem : a ∈ keys
    · rw [if_pos hmem, if_pos (List.mem_cons_of_mem b hmem)]
    · rw [if_neg hmem]
      by_cases hab : a = b
      · rw [hab, AList.lookup_erase, if_pos List.mem_cons_self]
      · rw [AList.lookup_erase_ne hab, if_neg (by simp [hab, hmem])]

variable [LinearOrder K]

/-- The number of keys greater than this one. -/
def rankIn (keys : List K) (a : K) : ℕ := keys.countP fun b => decide (a < b)

/-- The keys, the greatest first. -/
def descending (keys : List K) : List K := keys.insertionSort (· ≥ ·)

lemma descending_perm (keys : List K) : (descending keys).Perm keys :=
  List.perm_insertionSort _ keys

lemma rankIn_descending (keys : List K) (a : K) : rankIn (descending keys) a = rankIn keys a :=
  (descending_perm keys).countP_eq _

lemma mem_descending {keys : List K} {a : K} : a ∈ descending keys ↔ a ∈ keys :=
  (descending_perm keys).mem_iff

/-- Different keys are sorted strictly. -/
lemma descending_pairwise {keys : List K} (h : keys.Nodup) :
    (descending keys).Pairwise (· > ·) := by
  have hsorted : (descending keys).Pairwise (· ≥ ·) := List.pairwise_insertionSort _ keys
  have hnodup : (descending keys).Nodup := (descending_perm keys).nodup_iff.mpr h
  exact hsorted.imp₂ (fun a b hle hne => lt_of_le_of_ne hle (Ne.symm hne)) hnodup

lemma rankIn_eq_zero {keys : List K} {a : K} (h : ∀ b ∈ keys, b < a) : rankIn keys a = 0 := by
  refine List.countP_eq_zero.mpr fun b hb hlt => ?_
  exact lt_asymm (h b hb) (of_decide_eq_true hlt)

lemma rankIn_le {keys : List K} {a b : K} (h : a ≤ b) : rankIn keys b ≤ rankIn keys a :=
  List.countP_mono_left fun _ _ hlt => decide_eq_true (h.trans_lt (of_decide_eq_true hlt))

/-- In sorted keys, those after the first `k` are those of rank `k` or more. -/
lemma mem_drop_iff {keys : List K} (h : keys.Pairwise (· > ·)) (k : ℕ) (a : K) :
    a ∈ keys.drop k ↔ a ∈ keys ∧ k ≤ rankIn keys a := by
  induction keys generalizing k with
  | nil => simp
  | cons b keys ih =>
    obtain ⟨hb, htail⟩ := List.pairwise_cons.mp h
    have hcons : rankIn (b :: keys) a = rankIn keys a + if a < b then 1 else 0 := by
      simp [rankIn, List.countP_cons]
    cases k with
    | zero => simp
    | succ k =>
      rw [List.drop_succ_cons, ih htail, hcons]
      constructor
      · rintro ⟨hmem, hle⟩
        rw [if_pos (hb a hmem)]
        exact ⟨List.mem_cons_of_mem b hmem, Nat.succ_le_succ hle⟩
      · rintro ⟨hmem, hle⟩
        rcases List.mem_cons.mp hmem with rfl | hmem
        · -- the greatest key has no key above it
          rw [if_neg (lt_irrefl a), rankIn_eq_zero hb] at hle
          omega
        · rw [if_pos (hb a hmem)] at hle
          exact ⟨hmem, Nat.le_of_succ_le_succ hle⟩

variable [DecidableEq K]

/-- Remove all keys but the `k` greatest. -/
def keepGreatest (k : ℕ) (store : AList fun _ : K => V) : AList fun _ : K => V :=
  ((descending store.keys).drop k).foldl (fun kept key => kept.erase key) store

/-- **A key stays exactly when its rank is less than `k`.** -/
theorem lookup_keepGreatest (k : ℕ) (store : AList fun _ : K => V) (a : K) :
    (keepGreatest k store).lookup a = if rankIn store.keys a < k then store.lookup a else none := by
  rw [keepGreatest, lookup_eraseAll]
  have hmem := mem_drop_iff (descending_pairwise store.keys_nodup) k a
  rw [rankIn_descending, mem_descending] at hmem
  by_cases ha : a ∈ store.keys
  · by_cases hlt : rankIn store.keys a < k
    · rw [if_neg (fun h => absurd (hmem.mp h).2 (not_le.mpr hlt)), if_pos hlt]
    · rw [if_pos (hmem.mpr ⟨ha, not_lt.mp hlt⟩), if_neg hlt]
  · have hnone : store.lookup a = none := AList.lookup_eq_none.mpr fun h => ha (AList.mem_keys.mp h)
    rw [hnone, ite_self, ite_self]

lemma mem_keepGreatest {k : ℕ} {store : AList fun _ : K => V} {a : K} :
    a ∈ keepGreatest k store ↔ a ∈ store ∧ rankIn store.keys a < k := by
  rw [← AList.lookup_isSome, ← AList.lookup_isSome, lookup_keepGreatest]
  split_ifs with hlt
  · exact (and_iff_left hlt).symm
  · exact ⟨fun h => absurd h (by simp), fun h => absurd h.2 hlt⟩

end Habeny.Lib
