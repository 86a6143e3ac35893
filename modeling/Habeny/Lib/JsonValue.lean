import Habeny.Lib.Lines
import Mathlib.Algebra.Order.Ring.Rat

/-!
# JSON values

The values that `json.loads` returns.  A number may be a float that is not finite, and the texts
may hold surrogates.  An object is the list of its entries; `json.loads` leaves one entry for
each key.
-/

namespace Habeny.Lib

/-- A float, with the values that are not finite. -/
inductive JsonFloat where
  | finite (q : ℚ)
  | infinite (negative : Bool)
  | nan

inductive JsonValue where
  | null
  | bool (b : Bool)
  | int (n : ℤ)
  | float (x : JsonFloat)
  | str (t : CodeText)
  | list (items : List JsonValue)
  | dict (entries : List (CodeText × JsonValue))

/-- The entries of an object. -/
abbrev JsonEntries := List (CodeText × JsonValue)

namespace JsonValue

/-- Whether a value counts as true. -/
def truthy : JsonValue → Bool
  | .null => false
  | .bool b => b
  | .int n => decide (n ≠ 0)
  | .float (.finite q) => decide (q ≠ 0)
  | .float _ => true
  | .str t => !t.isEmpty
  | .list items => !items.isEmpty
  | .dict entries => !entries.isEmpty

/-- `value == 0` -/
def isZero : JsonValue → Bool
  | .bool b => !b
  | .int n => decide (n = 0)
  | .float (.finite q) => decide (q = 0)
  | _ => false

/-- `value > n`, where the two can be compared. -/
def exceeds (n : ℕ) : JsonValue → Option Bool
  | .bool b => some (decide (n < b.toNat))
  | .int m => some (decide ((n : ℤ) < m))
  | .float (.finite q) => some (decide ((n : ℚ) < q))
  | .float (.infinite negative) => some !negative
  | .float .nan => some false
  | _ => none

/-- The text that a value is. -/
def text? : JsonValue → Option CodeText
  | .str t => some t
  | _ => none

end JsonValue

/-- `d[key] = value` -/
def JsonEntries.set (entries : JsonEntries) (key : CodeText) (value : JsonValue) : JsonEntries :=
  if (entries.lookup key).isSome then
    entries.map fun e => if e.1 = key then (key, value) else e
  else entries ++ [(key, value)]

end Habeny.Lib
