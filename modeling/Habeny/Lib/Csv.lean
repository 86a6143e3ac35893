import Habeny.Lib.Text
import Mathlib.Data.List.Basic

/-!
# CSV

Rows of fields as `csv.writer` writes them, with quotes only where they are needed, and a reader
that goes through the text once.  What is written is read back (`rows_flatMap_row`), whatever
commas, quotes and line breaks the fields have.
-/

namespace Habeny.Lib.Csv

/-! ## Writing -/

/-- The characters for which a field is put between quotes. -/
def isSpecial (c : Char) : Bool := c == ',' || c == '"' || c == '\n' || c == '\r'

/-- A quote in a field is written twice. -/
def doubled (c : Char) : Text := if c = '"' then ['"', '"'] else [c]

def quoted (t : Text) : Text := '"' :: (t.flatMap doubled ++ ['"'])

def cell (t : Text) : Text := if t.any isSpecial then quoted t else t

def lineEnd : Text := ['\r', '\n']

/-- A row.  One empty field is put between quotes, since the row would be blank. -/
def row (fields : List Text) : Text :=
  (if fields = [[]] then quoted [] else [','].intercalate (fields.map cell)) ++ lineEnd

/-! ## Reading -/

/-- Where the reader is: at the start of a row or of a field, in a field, between quotes, after a
quote that may end them, or after a carriage return that ended a row. -/
inductive Mode where
  | start
  | field
  | plain
  | quoted
  | quote
  | carriage
  deriving DecidableEq

/-- The rows that were read, the fields of the row that is read, and the field that is read. -/
structure Reader where
  rows : List (List Text)
  fields : List Text
  field : Text
  mode : Mode

namespace Reader

/-- Before a row. -/
def fresh (rows : List (List Text)) : Reader := { rows, fields := [], field := [], mode := .start }

def add (r : Reader) (c : Char) (mode : Mode) : Reader := { r with field := r.field ++ [c], mode }

def endField (r : Reader) : Reader :=
  { r with fields := r.fields ++ [r.field], field := [], mode := .field }

def endRow (r : Reader) (mode : Mode) : Reader :=
  { rows := r.rows ++ [r.endField.fields], fields := [], field := [], mode }

/-- A character that is not between quotes. -/
def outside (r : Reader) (c : Char) : Reader :=
  if c = ',' then r.endField
  else if c = '\r' then r.endRow .carriage
  else if c = '\n' then r.endRow .start
  else r.add c .plain

/-- The first character of a field. -/
def first (r : Reader) (c : Char) : Reader :=
  if c = '"' then { r with mode := .quoted } else r.outside c

/-- The first character of a row.  A blank line is a row without fields. -/
def begin (r : Reader) (c : Char) : Reader :=
  if c = '\r' then { r with rows := r.rows ++ [[]], mode := .carriage }
  else if c = '\n' then { r with rows := r.rows ++ [[]], mode := .start }
  else r.first c

def step (r : Reader) (c : Char) : Reader :=
  match r.mode with
  | .start => r.begin c
  | .field => r.first c
  | .plain => r.outside c
  | .quoted => if c = '"' then { r with mode := .quote } else r.add c .quoted
  | .quote => if c = '"' then r.add c .quoted else r.outside c
  | .carriage => if c = '\n' then { r with mode := .start } else r.begin c

/-- The rows, where the last one may have no line end. -/
def finish (r : Reader) : List (List Text) :=
  match r.mode with
  | .start | .carriage => r.rows
  | _ => (r.endRow .start).rows

end Reader

/-- The rows of a text. -/
def rows (t : Text) : List (List Text) := (t.foldl Reader.step (.fresh [])).finish

/-! ## What is written is read back -/

section RoundTrip

open Reader

variable (rs : List (List Text)) (fs : List Text)

/-- Between quotes a field is read with its quotes doubled. -/
lemma foldl_doubled (t u : Text) :
    (t.flatMap doubled).foldl step { rows := rs, fields := fs, field := u, mode := .quoted } =
      { rows := rs, fields := fs, field := u ++ t, mode := .quoted } := by
  induction t generalizing u with
  | nil => simp
  | cons c t ih =>
    have hstep : (doubled c).foldl step { rows := rs, fields := fs, field := u, mode := .quoted } =
        { rows := rs, fields := fs, field := u ++ [c], mode := .quoted } := by
      by_cases hc : c = '"'
      · simp [doubled, hc, step, add]
      · simp [doubled, hc, step, add]
    rw [List.flatMap_cons, List.foldl_append, hstep, ih, List.append_assoc, List.singleton_append]

lemma outside_of_not_special {r : Reader} {c : Char} (hc : isSpecial c = false) :
    r.outside c = r.add c .plain := by
  simp only [isSpecial, Bool.or_eq_false_iff, beq_eq_false_iff_ne] at hc
  obtain ⟨⟨⟨hcomma, -⟩, hnewline⟩, hreturn⟩ := hc
  rw [outside, if_neg hcomma, if_neg hreturn, if_neg hnewline]

/-- Characters that are not special are read as they are. -/
lemma foldl_plain {t : Text} (ht : ∀ c ∈ t, isSpecial c = false) (u : Text) :
    t.foldl step { rows := rs, fields := fs, field := u, mode := .plain } =
      { rows := rs, fields := fs, field := u ++ t, mode := .plain } := by
  induction t generalizing u with
  | nil => simp
  | cons c t ih =>
    obtain ⟨hc, ht⟩ := List.forall_mem_cons.mp ht
    rw [List.foldl_cons, step, outside_of_not_special hc, add, ih ht, List.append_assoc,
      List.singleton_append]

/-- Where a field may begin. -/
def Mode.Begins (m : Mode) : Prop := m = .start ∨ m = .field

/-- The first character of a field that needs no quotes. -/
lemma step_of_begins {m : Mode} (hm : m.Begins) {c : Char} (hc : isSpecial c = false) :
    step { rows := rs, fields := fs, field := [], mode := m } c =
      { rows := rs, fields := fs, field := [c], mode := .plain } := by
  have hcases := hc
  simp only [isSpecial, Bool.or_eq_false_iff, beq_eq_false_iff_ne] at hcases
  obtain ⟨⟨⟨-, hquote⟩, hnewline⟩, hreturn⟩ := hcases
  rcases hm with rfl | rfl
  · rw [step, begin, if_neg hreturn, if_neg hnewline, first, if_neg hquote,
      outside_of_not_special hc]
    rfl
  · rw [step, first, if_neg hquote, outside_of_not_special hc]
    rfl

/-- A cell is read as its field. -/
lemma foldl_cell {m : Mode} (hm : m.Begins) (t : Text) :
    ∃ m', (cell t).foldl step { rows := rs, fields := fs, field := [], mode := m } =
        { rows := rs, fields := fs, field := t, mode := m' } ∧
      (m' = .plain ∨ m' = .quote ∨ m' = m ∧ t = []) := by
  rw [cell]
  split_ifs with hspecial
  · refine ⟨.quote, ?_, .inr (.inl rfl)⟩
    have hopen : step { rows := rs, fields := fs, field := [], mode := m } '"' =
        { rows := rs, fields := fs, field := [], mode := .quoted } := by
      rcases hm with rfl | rfl
      · rfl
      · rfl
    rw [quoted, List.foldl_cons, hopen, List.foldl_append, foldl_doubled rs fs]
    rfl
  · cases t with
    | nil => exact ⟨m, rfl, .inr (.inr ⟨rfl, rfl⟩)⟩
    | cons c t =>
      have hall : ∀ d ∈ c :: t, isSpecial d = false := by
        simpa only [List.any_eq_true, not_exists, not_and, Bool.not_eq_true] using hspecial
      obtain ⟨hc, ht⟩ := List.forall_mem_cons.mp hall
      refine ⟨.plain, ?_, .inl rfl⟩
      rw [List.foldl_cons, step_of_begins rs fs hm hc, foldl_plain rs fs ht]
      rfl

/-- A cell and a comma. -/
lemma foldl_cell_comma {m : Mode} (hm : m.Begins) (t : Text) :
    (cell t ++ [',']).foldl step { rows := rs, fields := fs, field := [], mode := m } =
      { rows := rs, fields := fs ++ [t], field := [], mode := .field } := by
  obtain ⟨m', hcell, hmode⟩ := foldl_cell rs fs hm t
  rw [List.foldl_append, hcell]
  rcases hmode with rfl | rfl | ⟨rfl, rfl⟩
  · rfl
  · rfl
  · rcases hm with rfl | rfl
    · rfl
    · rfl

/-- The last cell of a row, unless the row would be blank. -/
lemma foldl_cell_lineEnd {m : Mode} (hm : m.Begins) {t : Text} (h : ¬(m = .start ∧ t = [])) :
    (cell t ++ lineEnd).foldl step { rows := rs, fields := fs, field := [], mode := m } =
      fresh (rs ++ [fs ++ [t]]) := by
  obtain ⟨m', hcell, hmode⟩ := foldl_cell rs fs hm t
  rw [List.foldl_append, hcell]
  rcases hmode with rfl | rfl | ⟨rfl, rfl⟩
  · rfl
  · rfl
  · rcases hm with rfl | rfl
    · exact absurd ⟨rfl, rfl⟩ h
    · rfl

/-- The cells of a row from one on, unless the row would be blank. -/
lemma foldl_cells {m : Mode} (hm : m.Begins) {t : Text} {ts : List Text}
    (h : ¬(m = .start ∧ t = [] ∧ ts = [])) :
    ([','].intercalate ((t :: ts).map cell) ++ lineEnd).foldl step
        { rows := rs, fields := fs, field := [], mode := m } =
      fresh (rs ++ [fs ++ t :: ts]) := by
  induction ts generalizing t fs m with
  | nil =>
    rw [List.map_singleton, List.intercalate_singleton]
    exact foldl_cell_lineEnd rs fs hm fun hblank => h ⟨hblank.1, hblank.2, rfl⟩
  | cons u us ih =>
    rw [List.map_cons, List.map_cons, List.intercalate_cons_cons, List.append_assoc,
      List.foldl_append, foldl_cell_comma rs fs hm, ← List.map_cons, ih _ (.inr rfl) (by simp),
      List.append_assoc, List.singleton_append]

/-- **A row is read back.** -/
lemma foldl_row (fields : List Text) :
    (row fields).foldl step (fresh rs) = fresh (rs ++ [fields]) := by
  rw [row]
  split_ifs with hblank
  · rw [hblank]
    rfl
  · cases fields with
    | nil => rfl
    | cons t ts =>
      refine foldl_cells rs [] (.inl rfl) ?_
      rintro ⟨-, rfl, rfl⟩
      exact hblank rfl

end RoundTrip

/-- **Rows are read back.** -/
theorem rows_flatMap_row (fields : List (List Text)) : rows (fields.flatMap row) = fields := by
  have hread : ∀ rs,
      (fields.flatMap row).foldl Reader.step (.fresh rs) = .fresh (rs ++ fields) := by
    induction fields with
    | nil => exact fun rs => by rw [List.append_nil]; rfl
    | cons f fields ih =>
      intro rs
      rw [List.flatMap_cons, List.foldl_append, foldl_row, ih, List.append_assoc,
        List.singleton_append]
  rw [rows, hread]
  rfl

example : rows (row ["7".toList, [], "a \"b\", c".toList]) =
    [["7".toList, [], "a \"b\", c".toList]] := by decide

end Habeny.Lib.Csv
