import Habeny.Lib.JsonValue
import Mathlib.Data.List.Basic

/-!
# Reading a JSON value whose shape is not known

`value.get(key)`, `value[key]` and `for x in value` raise for values of other kinds: they are
partial here, `none` standing for the exception.  Beside each there is what is read where nothing is
raised, which is defined for every value, and the shape that a value needs for it.

Each is a value that is returned if a condition holds (`returnIf`), and such computations compose to
one of the same form (`bind_returnIf`, `mapM_returnIf`, `foldlM_returnIf`).
-/

namespace Habeny.Lib

/-! ## Computations that may raise -/

/-- A computation that returns a value if a condition holds, and raises otherwise. -/
def returnIf {α : Type} (ok : Bool) (a : α) : Option α := if ok then some a else none

section Raising

variable {α β : Type} {ok : Bool} {a : α}

@[simp] lemma isSome_returnIf : (returnIf ok a).isSome = ok := by
  cases ok <;> rfl

lemma returnIf_eq_some_iff {b : α} : returnIf ok a = some b ↔ ok = true ∧ a = b := by
  cases ok <;> simp [returnIf]

/-- A computation is of this form. -/
lemma eq_returnIf (x : Option α) (a : α) : x = returnIf x.isSome (x.getD a) := by
  cases x <;> rfl

lemma map_returnIf (f : α → β) : (returnIf ok a).map f = returnIf ok (f a) := by
  cases ok <;> rfl

lemma bind_returnIf {f : α → Option β} {ok' : Bool} {b : β} (hf : f a = returnIf ok' b) :
    (returnIf ok a >>= f) = returnIf (ok && ok') b := by
  cases ok
  · rfl
  · exact hf

lemma isSome_bind_returnIf {f : α → Option β} :
    (returnIf ok a >>= f).isSome = (ok && (f a).isSome) := by
  cases ok <;> rfl

/-- What is computed next may depend on a value, but whether it returns does not. -/
lemma isSome_bind_of_isSome {x : Option α} {f : α → Option β} {ok : Bool}
    (hf : ∀ a, (f a).isSome = ok) : (x >>= f).isSome = (x.isSome && ok) := by
  cases x with
  | none => rfl
  | some a => exact hf a

lemma ite_returnIf {c ok' : Bool} {b : α} :
    (if c then returnIf ok a else returnIf ok' b) =
      returnIf (if c then ok else ok') (if c then a else b) := by
  cases c <;> rfl

lemma mapM_returnIf {f : α → Option β} {ok : α → Bool} {g : α → β}
    (hf : ∀ a, f a = returnIf (ok a) (g a)) (xs : List α) :
    xs.mapM f = returnIf (xs.all ok) (xs.map g) := by
  induction xs with
  | nil => rfl
  | cons x xs ih =>
    rw [List.mapM_cons, ih, hf, List.all_cons, List.map_cons]
    cases ok x
    · rfl
    · cases xs.all ok <;> rfl

lemma isSome_mapM {f : α → Option β} (xs : List α) :
    (xs.mapM f).isSome = xs.all fun x => (f x).isSome := by
  induction xs with
  | nil => rfl
  | cons x xs ih =>
    rw [List.mapM_cons, List.all_cons, ← ih]
    cases f x with
    | none => rfl
    | some y => cases xs.mapM f <;> rfl

/-- A state that every item may change, or raise at. -/
lemma foldlM_returnIf {f : β → α → Option β} {ok : α → Bool} {g : β → α → β}
    (hf : ∀ b a, f b a = returnIf (ok a) (g b a)) (xs : List α) (b : β) :
    xs.foldlM f b = returnIf (xs.all ok) (xs.foldl g b) := by
  induction xs generalizing b with
  | nil => rfl
  | cons x xs ih =>
    rw [List.foldlM_cons, hf, List.all_cons, List.foldl_cons]
    cases ok x
    · rfl
    · exact ih (g b x)

end Raising

namespace JsonValue

/-! ## Objects -/

def isObject : JsonValue → Bool
  | .dict _ => true
  | _ => false

/-- The value of a key, null where there is none. -/
def entry (key : CodeText) : JsonValue → JsonValue
  | .dict es => (es.lookup key).getD .null
  | _ => .null

def hasKey (key : CodeText) : JsonValue → Bool
  | .dict es => (es.lookup key).isSome
  | _ => false

/-- `value.get(key)` -/
def get (key : CodeText) : JsonValue → Option JsonValue
  | .dict es => some ((es.lookup key).getD .null)
  | _ => none

/-- `value[key]` -/
def item (key : CodeText) : JsonValue → Option JsonValue
  | .dict es => es.lookup key
  | _ => none

/-- `value or {}` -/
def orEmpty (v : JsonValue) : JsonValue := if v.truthy then v else .dict []

/-- The value is an object, or one is taken in its place. -/
def objectOrFalsy (v : JsonValue) : Bool := !v.truthy || v.isObject

variable {key : CodeText} {v : JsonValue}

lemma get_eq : v.get key = returnIf v.isObject (v.entry key) := by
  cases v <;> rfl

lemma item_eq : v.item key = returnIf (v.hasKey key) (v.entry key) := by
  cases v with
  | dict es =>
    show es.lookup key = returnIf (es.lookup key).isSome ((es.lookup key).getD .null)
    exact eq_returnIf ..
  | _ => rfl

lemma isObject_orEmpty : v.orEmpty.isObject = v.objectOrFalsy := by
  rw [orEmpty, objectOrFalsy]
  cases v.truthy <;> rfl

lemma entry_orEmpty : v.orEmpty.entry key = v.entry key := by
  rw [orEmpty]
  split_ifs with h
  · rfl
  · cases v with
    | dict es =>
      cases es with
      | nil => rfl
      | cons e es => exact absurd rfl h
    | _ => rfl

lemma hasKey_orEmpty : v.orEmpty.hasKey key = v.hasKey key := by
  rw [orEmpty]
  split_ifs with h
  · rfl
  · cases v with
    | dict es =>
      cases es with
      | nil => rfl
      | cons e es => exact absurd rfl h
    | _ => rfl

/-! ## Items -/

/-- What a loop over a value goes through: items, keys or characters. -/
def items : JsonValue → List JsonValue
  | .list vs => vs
  | .dict es => es.map fun e => .str e.1
  | .str t => t.map fun c => .str [c]
  | _ => []

def iterable : JsonValue → Bool
  | .list _ | .dict _ | .str _ => true
  | _ => false

/-- `for x in value` -/
def iter (v : JsonValue) : Option (List JsonValue) := returnIf v.iterable v.items

/-- `value.get(key, [])`, as something to loop over -/
def getItems (key : CodeText) (v : JsonValue) : Option (List JsonValue) :=
  match v with
  | .dict es => ((es.lookup key).getD (.list [])).iter
  | _ => none

/-- What is looped over at a key: nothing where the key is missing. -/
def itemsAt (key : CodeText) (v : JsonValue) : List JsonValue := (v.entry key).items

/-- There is something to loop over at a key, or no such key. -/
def iterableAt (key : CodeText) (v : JsonValue) : Bool :=
  !v.hasKey key || (v.entry key).iterable

lemma getItems_eq :
    v.getItems key = returnIf (v.isObject && v.iterableAt key) (v.itemsAt key) := by
  cases v with
  | dict es =>
    show ((es.lookup key).getD (.list [])).iter =
      returnIf (true && (!(es.lookup key).isSome || ((es.lookup key).getD .null).iterable))
        ((es.lookup key).getD .null).items
    cases es.lookup key <;> rfl
  | _ => rfl

/-- `(value or {}).get(key)` -/
lemma get_orEmpty : v.orEmpty.get key = returnIf v.objectOrFalsy (v.entry key) := by
  rw [get_eq, isObject_orEmpty, entry_orEmpty]

lemma itemsAt_orEmpty : v.orEmpty.itemsAt key = v.itemsAt key := by
  rw [itemsAt, itemsAt, entry_orEmpty]

lemma iterableAt_orEmpty : v.orEmpty.iterableAt key = v.iterableAt key := by
  rw [iterableAt, iterableAt, entry_orEmpty, hasKey_orEmpty]

/-- `(value or {}).get(key, [])` -/
lemma getItems_orEmpty :
    v.orEmpty.getItems key = returnIf (v.objectOrFalsy && v.iterableAt key) (v.itemsAt key) := by
  rw [getItems_eq, isObject_orEmpty, iterableAt_orEmpty, itemsAt_orEmpty]

/-- `value[0]` -/
def head : JsonValue → Option JsonValue
  | .list vs => vs.head?
  | .str (c :: _) => some (.str [c])
  | _ => none

/-! ## Numbers -/

/-- `isinstance(value, (int, float))` -/
def isNumber : JsonValue → Bool
  | .bool _ | .int _ | .float _ => true
  | _ => false

/-- The integer that a value is, a word counting as one. -/
def integer? : JsonValue → Option ℤ
  | .bool b => some b.toNat
  | .int n => some n
  | _ => none

def float? : JsonValue → Option JsonFloat
  | .float x => some x
  | _ => none

end JsonValue

/-! ## Merging objects -/

namespace JsonEntries

lemma lookup_set (es : JsonEntries) (k a : CodeText) (v : JsonValue) :
    (es.set k v).lookup a = if a = k then some v else es.lookup a := by
  have hmap : ∀ es : JsonEntries, (es.map fun e => if e.1 = k then (k, v) else e).lookup a =
      if a = k then (es.lookup a).map fun _ => v else es.lookup a := by
    intro es
    induction es with
    | nil => split_ifs <;> rfl
    | cons e es ih =>
      obtain ⟨b, w⟩ := e
      rw [List.map_cons, List.lookup_cons, List.lookup_cons]
      by_cases hb : b = k
      · subst hb
        rw [if_pos rfl]
        by_cases ha : a = b
        · subst ha
          simp
        · rw [beq_eq_false_iff_ne.mpr ha, ih, if_neg ha]
      · rw [if_neg hb]
        by_cases ha : a = b
        · subst ha
          simp [hb]
        · rw [beq_eq_false_iff_ne.mpr ha, ih]
  unfold set
  split_ifs with hsome ha ha
  · subst ha
    rw [hmap, if_pos rfl]
    cases hlookup : es.lookup a with
    | none => rw [hlookup] at hsome; cases hsome
    | some w => rfl
  · rw [hmap, if_neg ha]
  · subst ha
    rw [Bool.not_eq_true, Option.isSome_eq_false_iff, Option.isNone_iff_eq_none] at hsome
    rw [List.lookup_append, hsome]
    simp
  · rw [List.lookup_append, List.lookup_cons, beq_eq_false_iff_ne.mpr ha, List.lookup_nil,
      Option.or_none]

/-- `{**old, **values}` -/
def merge (old values : JsonEntries) : JsonEntries :=
  values.foldl (fun es e => es.set e.1 e.2) old

lemma lookup_merge_of_not_mem {old values : JsonEntries} {k : CodeText}
    (h : k ∉ values.map Prod.fst) : (old.merge values).lookup k = old.lookup k := by
  induction values generalizing old with
  | nil => rfl
  | cons e values ih =>
    rw [List.map_cons, List.mem_cons, not_or] at h
    exact (ih h.2).trans ((lookup_set ..).trans (if_neg h.1))

/-- The first of the values is what is left at its key, if no other one has that key. -/
lemma lookup_merge_cons {old values : JsonEntries} {k : CodeText} {v : JsonValue}
    (h : k ∉ values.map Prod.fst) : (old.merge ((k, v) :: values)).lookup k = some v :=
  (@lookup_merge_of_not_mem (old.set k v) values k h).trans ((lookup_set ..).trans (if_pos rfl))

end JsonEntries

end Habeny.Lib
