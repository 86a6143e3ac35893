import Mathlib.Data.List.Basic
import Mathlib.Data.List.Nodup
import Mathlib.Logic.Function.Basic

/-!
# Dictionaries that keep the order of insertion

A dictionary is a partial function with the list of its keys, the oldest first.  A key that is
set again keeps its place; one that was erased and is set again comes last.
-/

namespace Habeny.Lib

/-- A dictionary, with its keys in the order of insertion. -/
structure Dict (K V : Type) where
  get : K → Option V
  keys : List K
  mem_keys : ∀ k, k ∈ keys ↔ (get k).isSome = true
  nodup : keys.Nodup

namespace Dict

variable {K V : Type}

def empty : Dict K V where
  get := fun _ => none
  keys := []
  mem_keys := fun _ => ⟨fun h => absurd h List.not_mem_nil, fun h => absurd h (by simp)⟩
  nodup := List.nodup_nil

variable {d : Dict K V} {k a : K} {v : V}

@[simp] lemma get_empty (k : K) : (empty : Dict K V).get k = none := rfl

lemma mem_keys_of_get (h : d.get k = some v) : k ∈ d.keys := by
  rw [d.mem_keys, h]
  rfl

/-- Change every value. -/
def map {W : Type} (f : V → W) (d : Dict K V) : Dict K W where
  get := fun k => (d.get k).map f
  keys := d.keys
  mem_keys := fun k => by rw [Option.isSome_map]; exact d.mem_keys k
  nodup := d.nodup

@[simp] lemma get_map {W : Type} (f : V → W) (d : Dict K V) (k : K) :
    (d.map f).get k = (d.get k).map f := rfl

/-- The entries whose key stays. -/
def filterKeys (stays : K → Bool) (d : Dict K V) : Dict K V where
  get := fun k => if stays k = true then d.get k else none
  keys := d.keys.filter stays
  mem_keys := fun k => by
    rw [List.mem_filter, d.mem_keys]
    split_ifs with h
    · exact and_iff_left h
    · exact ⟨fun hand => absurd hand.2 h, fun hsome => absurd hsome (by simp)⟩
  nodup := d.nodup.filter _

lemma get_filterKeys (stays : K → Bool) (d : Dict K V) (k : K) :
    (d.filterKeys stays).get k = if stays k = true then d.get k else none := rfl

/-- The keys with their values. -/
def items (d : Dict K V) : List (K × V) := d.keys.filterMap fun k => (d.get k).map fun v => (k, v)

lemma mem_items {e : K × V} : e ∈ d.items ↔ d.get e.1 = some e.2 := by
  simp only [items, List.mem_filterMap, Option.map_eq_some_iff]
  constructor
  · rintro ⟨k, -, v, hget, rfl⟩
    exact hget
  · exact fun hget => ⟨e.1, mem_keys_of_get hget, e.2, hget, rfl⟩

lemma nodup_items (d : Dict K V) : (d.items.map Prod.fst).Nodup := by
  rw [items, List.map_filterMap]
  refine d.nodup.filterMap fun k k' a hk hk' => ?_
  rw [Option.mem_def, Option.map_map, Option.map_eq_some_iff] at hk hk'
  obtain ⟨_, _, rfl⟩ := hk
  obtain ⟨_, _, h⟩ := hk'
  exact h.symm

variable [DecidableEq K]

/-- `d[k] = v` -/
def set (d : Dict K V) (k : K) (v : V) : Dict K V where
  get := Function.update d.get k (some v)
  keys := if k ∈ d.keys then d.keys else d.keys ++ [k]
  mem_keys := fun a => by
    by_cases ha : a = k
    · subst ha
      simp only [Function.update_self, Option.isSome_some, iff_true]
      split_ifs with hmem
      · exact hmem
      · simp
    · rw [Function.update_of_ne ha, ← d.mem_keys a]
      split_ifs
      · exact Iff.rfl
      · simp [ha]
  nodup := by
    split_ifs with hmem
    · exact d.nodup
    · exact List.Nodup.append d.nodup (List.nodup_singleton k)
        (List.disjoint_singleton.mpr hmem)

/-- `del d[k]`; nothing happens when there is no such key. -/
def erase (d : Dict K V) (k : K) : Dict K V where
  get := Function.update d.get k none
  keys := d.keys.filter fun a => decide (a ≠ k)
  mem_keys := fun a => by
    rw [List.mem_filter, d.mem_keys a, decide_eq_true_eq]
    by_cases ha : a = k
    · subst ha
      simp
    · rw [Function.update_of_ne ha]
      exact and_iff_left ha
  nodup := d.nodup.filter _

@[simp] lemma get_set_self : (d.set k v).get k = some v := Function.update_self ..

@[simp] lemma get_set_of_ne (h : a ≠ k) : (d.set k v).get a = d.get a := Function.update_of_ne h ..

/-- Some keys set to one value. -/
lemma get_setAll (keys : List K) (v : V) (d : Dict K V) (a : K) :
    (keys.foldl (fun d k => d.set k v) d).get a = if a ∈ keys then some v else d.get a := by
  induction keys generalizing d with
  | nil => simp
  | cons k keys ih =>
    rw [List.foldl_cons, ih]
    by_cases hmem : a ∈ keys
    · rw [if_pos hmem, if_pos (List.mem_cons_of_mem k hmem)]
    · rw [if_neg hmem]
      by_cases ha : a = k
      · rw [ha, get_set_self, if_pos List.mem_cons_self]
      · rw [get_set_of_ne ha, if_neg (by simp [ha, hmem])]

/-- Set those of some keys for which there is a value. -/
def setEach (f : K → Option V) (keys : List K) (d : Dict K V) : Dict K V :=
  keys.foldl (fun d k => match f k with | none => d | some v => d.set k v) d

lemma get_setEach (f : K → Option V) (keys : List K) (d : Dict K V) (a : K) :
    (d.setEach f keys).get a = if a ∈ keys then (f a).or (d.get a) else d.get a := by
  induction keys generalizing d with
  | nil => simp [setEach]
  | cons k keys ih =>
    have hstep : (d.setEach f (k :: keys)).get a =
        ((match f k with | none => d | some v => d.set k v).setEach f keys).get a := rfl
    rw [hstep, ih]
    by_cases ha : a = k
    · subst ha
      rw [if_pos List.mem_cons_self]
      cases hf : f a <;> simp
    · have hget : (match f k with | none => d | some v => d.set k v).get a = d.get a := by
        cases f k with
        | none => rfl
        | some v => exact get_set_of_ne ha
      rw [hget]
      by_cases hmem : a ∈ keys
      · rw [if_pos hmem, if_pos (List.mem_cons_of_mem k hmem)]
      · rw [if_neg hmem, if_neg (by simp [ha, hmem])]

@[simp] lemma get_erase_self : (d.erase k).get k = none := Function.update_self ..

@[simp] lemma get_erase_of_ne (h : a ≠ k) : (d.erase k).get a = d.get a :=
  Function.update_of_ne h ..

/-- What erasing some keys leaves. -/
lemma get_eraseAll (keys : List K) (d : Dict K V) (a : K) :
    (keys.foldl erase d).get a = if a ∈ keys then none else d.get a := by
  induction keys generalizing d with
  | nil => simp
  | cons k keys ih =>
    rw [List.foldl_cons, ih]
    by_cases hmem : a ∈ keys
    · rw [if_pos hmem, if_pos (List.mem_cons_of_mem k hmem)]
    · rw [if_neg hmem]
      by_cases ha : a = k
      · rw [ha, get_erase_self, if_pos List.mem_cons_self]
      · rw [get_erase_of_ne ha, if_neg (by simp [ha, hmem])]

lemma keys_eraseAll (keys : List K) (d : Dict K V) :
    (keys.foldl erase d).keys = d.keys.filter fun a => decide (a ∉ keys) := by
  induction keys generalizing d with
  | nil => simp
  | cons k keys ih =>
    rw [List.foldl_cons, ih]
    show (d.keys.filter _).filter _ = _
    rw [List.filter_filter]
    refine List.filter_congr fun a _ => ?_
    simp [Bool.and_comm]

lemma mem_keys_eraseAll {keys : List K} :
    a ∈ (keys.foldl erase d).keys ↔ a ∈ d.keys ∧ a ∉ keys := by
  rw [keys_eraseAll, List.mem_filter, decide_eq_true_eq]

lemma keys_eraseAll_sublist (keys : List K) (d : Dict K V) :
    (keys.foldl erase d).keys.Sublist d.keys := by
  rw [keys_eraseAll]
  exact List.filter_sublist

lemma keys_set_of_mem (h : k ∈ d.keys) : (d.set k v).keys = d.keys := if_pos h

lemma keys_set_of_notMem (h : k ∉ d.keys) : (d.set k v).keys = d.keys ++ [k] := if_neg h

end Dict

end Habeny.Lib
