import Habeny.Lib.Lines

/-!
# Options of a command

A program reads its arguments from the left: an option that takes a value is read with the argument
after it, whatever that is; after two dashes, or from the first argument that is no option, all
that follows are operands.
-/

namespace Habeny.Lib.Options

open CodeText

/-- What ends the options. -/
def dashes : CodeText := lit "--"

/-- An argument that begins with a dash, and is not only one. -/
def isOption : CodeText → Bool
  | c :: _ :: _ => c == 45
  | _ => false

/-- The options of some arguments with their values, and the operands; an option that lacks its
value cannot be read. -/
def read (takesValue : CodeText → Bool) :
    List CodeText → Option (List (CodeText × Option CodeText) × List CodeText)
  | [] => some ([], [])
  | [a] =>
    if a = dashes then some ([], [])
    else if takesValue a then none
    else if isOption a then some ([(a, none)], [])
    else some ([], [a])
  | a :: v :: rest =>
    if a = dashes then some ([], v :: rest)
    else if takesValue a then
      (read takesValue rest).map fun r => ((a, some v) :: r.1, r.2)
    else if isOption a then
      (read takesValue (v :: rest)).map fun r => ((a, none) :: r.1, r.2)
    else some ([], a :: v :: rest)

/-- The arguments for options with values. -/
def arguments (options : List (CodeText × CodeText)) : List CodeText :=
  options.flatMap fun o => [o.1, o.2]

/-- **Options with values, and then two dashes, are read as they are meant**, whatever the values
and the operands are. -/
theorem read_arguments {takesValue : CodeText → Bool} {options : List (CodeText × CodeText)}
    (h : ∀ o ∈ options, takesValue o.1 = true ∧ o.1 ≠ dashes) (operands : List CodeText) :
    read takesValue (arguments options ++ dashes :: operands) =
      some (options.map fun o => (o.1, some o.2), operands) := by
  induction options with
  | nil => cases operands <;> simp [arguments, read]
  | cons o options ih =>
    obtain ⟨htakes, hne⟩ := h o List.mem_cons_self
    have hcons : arguments (o :: options) ++ dashes :: operands =
        o.1 :: o.2 :: (arguments options ++ dashes :: operands) := rfl
    rw [hcons, read, if_neg hne, if_pos htakes, ih fun b hb => h b (List.mem_cons_of_mem o hb)]
    rfl

end Habeny.Lib.Options
