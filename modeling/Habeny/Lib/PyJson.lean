import Habeny.Lib.JsonText
import Mathlib.Data.List.Sort

/-!
# Python values and the texts `json.dumps` makes of them

A string is a list of code points, among which may be surrogates.  A dict may have keys of any
kind, and a value may be of a kind that JSON does not know; with `default=str` the text of such a
value is written.

Writing raises when keys are to be sorted that cannot be compared, at keys that are no texts,
numbers or words, at integers with too many digits, and where values are nested too deeply.
`dumps_isOk` says exactly when it does not, and `forall_mem_dumps` which code points the text
then has.
-/

namespace Habeny.Lib

/-- A string. -/
@[ext]
structure PyStr where
  points : CodeText
  valid : ∀ c ∈ points, c < 0x110000
  deriving DecidableEq

namespace PyStr

/-- The string of a text of characters. -/
def ofText (t : Text) : PyStr where
  points := t.map Char.toNat
  valid := by
    intro c hc
    obtain ⟨d, -, rfl⟩ := List.mem_map.mp hc
    rcases d.valid with h | h
    · exact h.trans (by decide)
    · exact h.2

def lit (s : String) : PyStr := ofText s.toList

instance : Append PyStr where
  append s t :=
    { points := s.points ++ t.points
      valid := fun c hc => (List.mem_append.mp hc).elim (s.valid c) (t.valid c) }

@[simp] lemma points_append (s t : PyStr) : (s ++ t).points = s.points ++ t.points := rfl

@[simp] lemma points_ofText (t : Text) : (ofText t).points = t.map Char.toNat := rfl

/-- The characters of a string that has no surrogates. -/
def chars (s : PyStr) : Text := s.points.map Char.ofNat

/-- Whether a string can be encoded. -/
def encodable (s : PyStr) : Bool := CodeText.encodable s.points

end PyStr

/-- The exceptions that writing, encoding and storing a value may raise. -/
inductive PyError where
  | typeError
  | valueError
  | recursionError
  | unicodeEncodeError
  | overflowError
  deriving DecidableEq

/-- A float. -/
inductive PyFloat (F : JsonText.FloatText) where
  | finite (q : ℚ) (isFloat : F.isFloat q)
  | infinite (negative : Bool)
  | nan

/-- A key of a dict. -/
inductive PyKey (F : JsonText.FloatText) where
  | none
  | bool (b : Bool)
  | int (n : ℤ)
  | float (x : PyFloat F)
  | str (t : PyStr)
  | other

/-- A value.  Lists stand for tuples as well, and a value of another kind is known by its text. -/
inductive PyValue (F : JsonText.FloatText) where
  | none
  | bool (b : Bool)
  | int (n : ℤ)
  | float (x : PyFloat F)
  | str (t : PyStr)
  | list (items : List (PyValue F))
  | dict (entries : List (PyKey F × PyValue F))
  | other (truthy : Bool) (str : PyStr)

variable {F : JsonText.FloatText}

def PyFloat.value : PyFloat F → JsonFloat
  | .finite q _ => .finite q
  | .infinite negative => .infinite negative
  | .nan => .nan

/-- Whether a value counts as true. -/
def PyValue.truthy : PyValue F → Bool
  | .none => false
  | .bool b => b
  | .int n => decide (n ≠ 0)
  | .float (.finite q _) => decide (q ≠ 0)
  | .float _ => true
  | .str t => !t.points.isEmpty
  | .list items => !items.isEmpty
  | .dict entries => !entries.isEmpty
  | .other truthy _ => truthy

/-- How values are written. -/
structure DumpOptions where
  sortKeys : Bool
  ensureAscii : Bool
  itemSeparator : CodeText
  keySeparator : CodeText
  printable : ∀ c ∈ itemSeparator ++ keySeparator, JsonText.isPrintable c = true

namespace PyJson

open CodeText JsonText

/-! ## Keys -/

/-- The number that a key is. -/
def number? : PyKey F → Option JsonFloat
  | .bool b => some (.finite b.toNat)
  | .int n => some (.finite n)
  | .float x => some x.value
  | _ => none

def str? : PyKey F → Option PyStr
  | .str t => some t
  | _ => none

def numberLt : JsonFloat → JsonFloat → Bool
  | .finite p, .finite q => decide (p < q)
  | .infinite true, .finite _ => true
  | .finite _, .infinite false => true
  | .infinite true, .infinite false => true
  | _, _ => false

def keyLt (k k' : PyKey F) : Bool :=
  match str? k, str? k', number? k, number? k' with
  | some s, some t, _, _ => decide (s.points < t.points)
  | _, _, some x, some y => numberLt x y
  | _, _, _, _ => false

/-- Whether keys can be sorted: a text and a number cannot be compared, and a word with neither. -/
def comparable (keys : List (PyKey F)) : Bool :=
  decide (keys.length ≤ 1) || keys.all (fun k => (str? k).isSome) ||
    keys.all fun k => (number? k).isSome

def sorted {β : Type*} (es : List (PyKey F × β)) : List (PyKey F × β) :=
  es.insertionSort fun e e' => !keyLt e'.1 e.1

/-- The entries in the order in which they are written. -/
def ordered {β : Type*} (o : DumpOptions) (es : List (PyKey F × β)) :
    Except PyError (List (PyKey F × β)) :=
  if o.sortKeys then
    if comparable (es.map Prod.fst) then .ok (sorted es) else .error .typeError
  else .ok es

/-! ## Texts -/

/-- How a code point is written in a string when only what has to be escaped is. -/
def rawEscape (c : ℕ) : CodeText :=
  match letters.lookup c with
  | some e => [code '\\', e]
  | none => if c < 32 then unicodeEscape c else [c]

def escape (o : DumpOptions) (c : ℕ) : CodeText :=
  if o.ensureAscii then JsonText.escape c else rawEscape c

def quote (o : DumpOptions) (t : CodeText) : CodeText :=
  code '"' :: (t.flatMap (escape o) ++ [code '"'])

def fewDigits (n : ℤ) : Bool := decide (((intText n).filter isDigit).length ≤ maxDigits)

/-- `int.__repr__` -/
def intRepr (n : ℤ) : Except PyError CodeText :=
  if fewDigits n then .ok (intText n) else .error .valueError

def floatRepr (x : PyFloat F) : CodeText := floatText F x.value

def word (b : Bool) : CodeText := if b then lit "true" else lit "false"

def keyText : PyKey F → Except PyError CodeText
  | .none => .ok (lit "null")
  | .bool b => .ok (word b)
  | .int n => intRepr n
  | .float x => .ok (floatRepr x)
  | .str t => .ok t.points
  | .other => .error .typeError

/-- The text of an entry, whose value has been written. -/
def entryText (o : DumpOptions) (e : PyKey F × Except PyError CodeText) :
    Except PyError CodeText := do
  let key ← keyText e.1
  let value ← e.2
  return quote o key ++ o.keySeparator ++ value

/-- Texts with separators between them, in brackets. -/
def bracketed (o : DumpOptions) (opening closing : Char) (texts : List CodeText) : CodeText :=
  code opening :: (o.itemSeparator.intercalate texts ++ [code closing])

mutual

/-- `json.dumps` with `default=str`, where containers may be nested only so deeply. -/
def dumps (o : DumpOptions) : ℕ → PyValue F → Except PyError CodeText
  | _, .none => .ok (lit "null")
  | _, .bool b => .ok (word b)
  | _, .int n => intRepr n
  | _, .float x => .ok (floatRepr x)
  | _, .str t => .ok (quote o t.points)
  | 0, .list _ => .error .recursionError
  | depth + 1, .list items => do
    let texts ← (itemTexts o depth items).mapM id
    return bracketed o '[' ']' texts
  | 0, .dict _ => .error .recursionError
  | depth + 1, .dict entries => do
    let es ← ordered o (entryTexts o depth entries)
    let texts ← es.mapM (entryText o)
    return bracketed o '{' '}' texts
  | 0, .other _ _ => .error .recursionError
  | _ + 1, .other _ str => .ok (quote o str.points)

def itemTexts (o : DumpOptions) : ℕ → List (PyValue F) → List (Except PyError CodeText)
  | _, [] => []
  | depth, v :: vs => dumps o depth v :: itemTexts o depth vs

def entryTexts (o : DumpOptions) :
    ℕ → List (PyKey F × PyValue F) → List (PyKey F × Except PyError CodeText)
  | _, [] => []
  | depth, (k, v) :: es => (k, dumps o depth v) :: entryTexts o depth es

end

/-! ## What is written -/

def keyFits : PyKey F → Bool
  | .int n => fewDigits n
  | .other => false
  | _ => true

mutual

/-- Whether a value is written. -/
def fits (o : DumpOptions) : ℕ → PyValue F → Bool
  | _, .int n => fewDigits n
  | 0, .list _ => false
  | depth + 1, .list items => itemsFit o depth items
  | 0, .dict _ => false
  | depth + 1, .dict entries =>
    (!o.sortKeys || comparable (entries.map Prod.fst)) && entriesFit o depth entries
  | 0, .other _ _ => false
  | _, _ => true

def itemsFit (o : DumpOptions) : ℕ → List (PyValue F) → Bool
  | _, [] => true
  | depth, v :: vs => fits o depth v && itemsFit o depth vs

def entriesFit (o : DumpOptions) : ℕ → List (PyKey F × PyValue F) → Bool
  | _, [] => true
  | depth, (k, v) :: es => keyFits k && fits o depth v && entriesFit o depth es

end

/-- The code points of a key. -/
def keyPoints : PyKey F → CodeText
  | .str t => t.points
  | _ => []

mutual

/-- The code points of all strings of a value, its keys among them. -/
def points : PyValue F → CodeText
  | .str t => t.points
  | .list items => itemPoints items
  | .dict entries => entryPoints entries
  | .other _ str => str.points
  | _ => []

def itemPoints : List (PyValue F) → CodeText
  | [] => []
  | v :: vs => points v ++ itemPoints vs

def entryPoints : List (PyKey F × PyValue F) → CodeText
  | [] => []
  | (k, v) :: es => keyPoints k ++ points v ++ entryPoints es

end

/-! ## When a value is written -/

section MapM

variable {α β ε : Type*} {f : α → Except ε β}

lemma mapM_eq_ok_iff {xs : List α} {ys : List β} :
    xs.mapM f = .ok ys ↔ List.Forall₂ (fun x y => f x = .ok y) xs ys := by
  induction xs generalizing ys with
  | nil => cases ys <;> simp [pure, Except.pure]
  | cons x xs ih =>
    rw [List.mapM_cons]
    cases hx : f x with
    | error e => cases ys <;> simp [bind, Except.bind, hx]
    | ok y =>
      cases hxs : xs.mapM f with
      | error e => cases ys <;> simp [bind, Except.bind, ← ih, hx, hxs]
      | ok zs => cases ys <;> simp [bind, Except.bind, pure, Except.pure, ← ih, hx, hxs]

lemma mapM_isOk_iff {xs : List α} :
    (∃ ys, xs.mapM f = .ok ys) ↔ ∀ x ∈ xs, ∃ y, f x = .ok y := by
  simp only [mapM_eq_ok_iff]
  induction xs with
  | nil => exact iff_of_true ⟨[], .nil⟩ fun x hx => absurd hx List.not_mem_nil
  | cons x xs ih =>
    rw [List.forall_mem_cons, ← ih]
    constructor
    · rintro ⟨ys, hys⟩
      cases hys with
      | cons hx hxs => exact ⟨⟨_, hx⟩, _, hxs⟩
    · rintro ⟨⟨y, hx⟩, ys, hxs⟩
      exact ⟨y :: ys, .cons hx hxs⟩

lemma forall_mem_mapM {xs : List α} {ys : List β} (h : xs.mapM f = .ok ys) {p : β → Prop} :
    (∀ y ∈ ys, p y) ↔ ∀ x ∈ xs, ∀ y, f x = .ok y → p y := by
  rw [mapM_eq_ok_iff] at h
  induction h with
  | nil => simp
  | cons hx _ ih =>
    rw [List.forall_mem_cons, List.forall_mem_cons, ih, hx]
    simp

end MapM

lemma mem_sorted {β : Type*} {es : List (PyKey F × β)} {e : PyKey F × β} :
    e ∈ sorted es ↔ e ∈ es :=
  List.mem_insertionSort _

/-- Sorting leaves the entries, if the keys can be compared. -/
lemma ordered_eq_ok {β : Type*} {o : DumpOptions} {es es' : List (PyKey F × β)}
    (h : ordered o es = .ok es') : ∀ e, e ∈ es' ↔ e ∈ es := by
  intro e
  unfold ordered at h
  split_ifs at h
  · cases h
    exact mem_sorted
  · cases h
    rfl

lemma ordered_isOk_iff {β : Type*} {o : DumpOptions} {es : List (PyKey F × β)} :
    (∃ es', ordered o es = .ok es') ↔ (!o.sortKeys || comparable (es.map Prod.fst)) = true := by
  unfold ordered
  cases o.sortKeys with
  | false => simp
  | true => cases comparable (es.map Prod.fst) <;> simp

lemma intRepr_isOk_iff {n : ℤ} : (∃ t, intRepr n = .ok t) ↔ fewDigits n = true := by
  unfold intRepr
  cases fewDigits n <;> simp

lemma keyText_isOk_iff {k : PyKey F} : (∃ t, keyText k = .ok t) ↔ keyFits k = true := by
  cases k with
  | int n => exact intRepr_isOk_iff
  | other => simp [keyText, keyFits]
  | none => simp [keyText, keyFits]
  | bool b => simp [keyText, keyFits]
  | float x => simp [keyText, keyFits]
  | str t => simp [keyText, keyFits]

lemma entryText_isOk_iff {o : DumpOptions} {e : PyKey F × Except PyError CodeText} :
    (∃ t, entryText o e = .ok t) ↔ keyFits e.1 = true ∧ ∃ t, e.2 = .ok t := by
  obtain ⟨k, value⟩ := e
  rw [← keyText_isOk_iff, entryText]
  cases keyText k with
  | error e => simp [bind, Except.bind]
  | ok key => cases value <;> simp [bind, Except.bind, pure, Except.pure]

lemma map_fst_entryTexts {o : DumpOptions} (depth : ℕ) (es : List (PyKey F × PyValue F)) :
    (entryTexts o depth es).map Prod.fst = es.map Prod.fst := by
  induction es with
  | nil => simp [entryTexts]
  | cons e es ih => simp [entryTexts, ih]

lemma dumps_list {o : DumpOptions} {depth : ℕ} {items : List (PyValue F)} {t : CodeText} :
    dumps o (depth + 1) (.list items) = .ok t ↔
      ∃ texts, (itemTexts o depth items).mapM id = .ok texts ∧ t = bracketed o '[' ']' texts := by
  rw [dumps]
  cases (itemTexts o depth items).mapM id with
  | error e => simp [bind, Except.bind]
  | ok texts => simp [bind, Except.bind, pure, Except.pure, eq_comm]

lemma dumps_dict {o : DumpOptions} {depth : ℕ} {es : List (PyKey F × PyValue F)} {t : CodeText} :
    dumps o (depth + 1) (.dict es) = .ok t ↔
      ∃ es' texts, ordered o (entryTexts o depth es) = .ok es' ∧
        es'.mapM (entryText o) = .ok texts ∧ t = bracketed o '{' '}' texts := by
  rw [dumps]
  cases ordered o (entryTexts o depth es) with
  | error e => simp [bind, Except.bind]
  | ok es' =>
    cases htexts : es'.mapM (entryText o) with
    | error e => simp [bind, Except.bind, htexts]
    | ok texts => simp [bind, Except.bind, pure, Except.pure, htexts, eq_comm]

lemma dumps_list_isOk {o : DumpOptions} {depth : ℕ} {items : List (PyValue F)} :
    (∃ t, dumps o (depth + 1) (.list items) = .ok t) ↔
      ∀ x ∈ itemTexts o depth items, ∃ t, x = .ok t := by
  simp only [dumps_list]
  constructor
  · rintro ⟨t, texts, htexts, -⟩
    exact mapM_isOk_iff.mp ⟨texts, htexts⟩
  · intro hall
    obtain ⟨texts, htexts⟩ := mapM_isOk_iff.mpr hall
    exact ⟨_, texts, htexts, rfl⟩

lemma dumps_dict_isOk {o : DumpOptions} {depth : ℕ} {es : List (PyKey F × PyValue F)} :
    (∃ t, dumps o (depth + 1) (.dict es) = .ok t) ↔
      (!o.sortKeys || comparable (es.map Prod.fst)) = true ∧
        ∀ e ∈ entryTexts o depth es, ∃ t, entryText o e = .ok t := by
  simp only [dumps_dict]
  rw [← map_fst_entryTexts (o := o) depth, ← ordered_isOk_iff]
  constructor
  · rintro ⟨t, es', texts, hordered, htexts, -⟩
    refine ⟨⟨es', hordered⟩, fun e he => ?_⟩
    exact mapM_isOk_iff.mp ⟨texts, htexts⟩ e ((ordered_eq_ok hordered e).mpr he)
  · rintro ⟨⟨es', hordered⟩, hall⟩
    obtain ⟨texts, htexts⟩ := mapM_isOk_iff.mpr fun e he =>
      hall e ((ordered_eq_ok hordered e).mp he)
    exact ⟨_, es', texts, hordered, htexts, rfl⟩

mutual

/-- **Exactly the values that fit are written.** -/
theorem dumps_isOk {o : DumpOptions} : ∀ (depth : ℕ) (v : PyValue F),
    (∃ t, dumps o depth v = .ok t) ↔ fits o depth v = true
  | _, .none | _, .bool _ | _, .float _ | _, .str _ | _ + 1, .other _ _ => by simp [dumps, fits]
  | _, .int n => by
    rw [dumps, fits]
    exact intRepr_isOk_iff
  | 0, .list _ | 0, .dict _ | 0, .other _ _ => by simp [dumps, fits]
  | depth + 1, .list items => by
    rw [dumps_list_isOk, fits]
    exact itemTexts_isOk depth items
  | depth + 1, .dict es => by
    rw [dumps_dict_isOk, fits, Bool.and_eq_true, entryTexts_isOk depth es]

theorem itemTexts_isOk {o : DumpOptions} : ∀ (depth : ℕ) (vs : List (PyValue F)),
    (∀ x ∈ itemTexts o depth vs, ∃ t, x = .ok t) ↔ itemsFit o depth vs = true
  | _, [] => by simp [itemTexts, itemsFit]
  | depth, v :: vs => by
    rw [itemTexts, itemsFit, List.forall_mem_cons, Bool.and_eq_true, dumps_isOk depth v,
      itemTexts_isOk depth vs]

theorem entryTexts_isOk {o : DumpOptions} : ∀ (depth : ℕ) (es : List (PyKey F × PyValue F)),
    (∀ e ∈ entryTexts o depth es, ∃ t, entryText o e = .ok t) ↔ entriesFit o depth es = true
  | _, [] => by simp [entryTexts, entriesFit]
  | depth, (k, v) :: es => by
    rw [entryTexts, entriesFit, List.forall_mem_cons, Bool.and_eq_true, Bool.and_eq_true,
      entryText_isOk_iff, dumps_isOk depth v, entryTexts_isOk depth es]

end

lemma itemsFit_iff {o : DumpOptions} {depth : ℕ} {vs : List (PyValue F)} :
    itemsFit o depth vs = true ↔ ∀ v ∈ vs, fits o depth v = true := by
  induction vs with
  | nil => simp [itemsFit]
  | cons v vs ih => simp [itemsFit, ih]

lemma entriesFit_iff {o : DumpOptions} {depth : ℕ} {es : List (PyKey F × PyValue F)} :
    entriesFit o depth es = true ↔ ∀ e ∈ es, keyFits e.1 = true ∧ fits o depth e.2 = true := by
  induction es with
  | nil => simp [entriesFit]
  | cons e es ih => simp [entriesFit, ih]

/-! ## The code points of what is written -/

section Points

variable {o : DumpOptions} {P : ℕ → Prop}

lemma rawEscape_printable {c : ℕ} (hc : isPrintable c = true) : IsAsciiText (rawEscape c) := by
  unfold rawEscape
  split
  · next e hletter =>
    obtain ⟨before, after, hletters, -⟩ := List.lookup_eq_some_iff.mp hletter
    have hprintable := letters_printable (c, e) (by simp [hletters])
    exact .cons (by decide) (.cons hprintable fun c hc => absurd hc List.not_mem_nil)
  · split_ifs with hlow
    · exact isAsciiText_unicodeEscape (by omega)
    · exact .cons hc fun c hc => absurd hc List.not_mem_nil

lemma escape_printable {c : ℕ} (hc : isPrintable c = true) :
    IsAsciiText (escape o c) := by
  unfold escape
  split_ifs
  · rw [isPrintable, decide_eq_true_eq] at hc
    exact isAsciiText_escape (by omega)
  · exact rawEscape_printable hc

lemma isAsciiText_word (b : Bool) : IsAsciiText (word b) := by
  cases b <;> exact isAsciiText_of_all rfl

lemma isAsciiText_floatRepr (x : PyFloat F) : IsAsciiText (floatRepr x) := by
  cases x with
  | finite q isFloat => exact (F.isFloatText q isFloat).isAsciiText
  | infinite negative => cases negative <;> exact isAsciiText_of_all rfl
  | nan => exact isAsciiText_of_all rfl

lemma intRepr_eq_ok {n : ℤ} {t : CodeText} (h : intRepr n = .ok t) : IsAsciiText t := by
  unfold intRepr at h
  split_ifs at h
  cases h
  exact (isInteger_intText n).isAsciiText

lemma forall_mem_quote (hP : ∀ c, isPrintable c = true → P c) {t : CodeText} :
    (∀ d ∈ quote o t, P d) ↔ ∀ c ∈ t, ∀ d ∈ escape o c, P d := by
  have hquote : P (code '"') := hP _ (by decide)
  rw [quote, List.forall_mem_cons, List.forall_mem_append, List.forall_mem_singleton]
  simp only [List.mem_flatMap, hquote, true_and, and_true]
  constructor
  · intro h c hc d hd
    exact h d ⟨c, hc, hd⟩
  · rintro h d ⟨c, hc, hd⟩
    exact h c hc d hd

lemma forall_mem_bracketed (hP : ∀ c, isPrintable c = true → P c) {opening closing : Char}
    (hopening : isPrintable (code opening) = true) (hclosing : isPrintable (code closing) = true)
    {texts : List CodeText} :
    (∀ d ∈ bracketed o opening closing texts, P d) ↔ ∀ t ∈ texts, ∀ d ∈ t, P d := by
  have hseparator : ∀ d ∈ o.itemSeparator, P d := fun d hd =>
    hP d (o.printable d (List.mem_append_left _ hd))
  have hjoined : (∀ d ∈ o.itemSeparator.intercalate texts, P d) ↔ ∀ t ∈ texts, ∀ d ∈ t, P d := by
    induction texts with
    | nil => simp
    | cons t texts ih =>
      cases texts with
      | nil => simp
      | cons u texts =>
        rw [List.intercalate_cons_cons, List.forall_mem_append, List.forall_mem_append, ih,
          List.forall_mem_cons (l := u :: texts)]
        exact ⟨fun h => ⟨h.1.1, h.2⟩, fun h => ⟨⟨h.1, hseparator⟩, h.2⟩⟩
  rw [bracketed, List.forall_mem_cons, List.forall_mem_append, hjoined, List.forall_mem_singleton]
  exact ⟨fun h => h.2.1, fun h => ⟨hP _ hopening, h, hP _ hclosing⟩⟩

lemma forall_mem_keyText (hP : ∀ c, isPrintable c = true → P c) {k : PyKey F} {t : CodeText}
    (h : keyText k = .ok t) :
    (∀ d ∈ quote o t, P d) ↔ ∀ c ∈ keyPoints k, ∀ d ∈ escape o c, P d := by
  rw [forall_mem_quote hP]
  -- of a key that is no string, all code points are printable
  have hword : IsAsciiText t → ((∀ c ∈ t, ∀ d ∈ escape o c, P d) ↔
      ∀ c ∈ ([] : CodeText), ∀ d ∈ escape o c, P d) := by
    intro ht
    refine iff_of_true (fun c hc d hd => hP d ?_) fun c hc => absurd hc List.not_mem_nil
    exact escape_printable (ht c hc) d hd
  cases k with
  | str t => cases h; rfl
  | none => cases h; exact hword (isAsciiText_of_all rfl)
  | bool b => cases h; exact hword (isAsciiText_word b)
  | float x => cases h; exact hword (isAsciiText_floatRepr x)
  | int n => exact hword (intRepr_eq_ok h)
  | other => cases h

lemma entryText_eq_ok {k : PyKey F} {value : Except PyError CodeText} {t : CodeText} :
    entryText o (k, value) = .ok t ↔
      ∃ key text, keyText k = .ok key ∧ value = .ok text ∧
        t = quote o key ++ o.keySeparator ++ text := by
  rw [entryText]
  cases keyText k with
  | error e => simp [bind, Except.bind]
  | ok key => cases value <;> simp [bind, Except.bind, pure, Except.pure, eq_comm]

lemma forall_mem_entryText (hP : ∀ c, isPrintable c = true → P c) {k : PyKey F}
    {value : Except PyError CodeText} {t : CodeText} (h : entryText o (k, value) = .ok t) :
    ∃ text, value = .ok text ∧ ((∀ d ∈ t, P d) ↔
      (∀ c ∈ keyPoints k, ∀ d ∈ escape o c, P d) ∧ ∀ d ∈ text, P d) := by
  obtain ⟨key, text, hkey, hvalue, rfl⟩ := entryText_eq_ok.mp h
  have hseparator : ∀ d ∈ o.keySeparator, P d := fun d hd =>
    hP d (o.printable d (List.mem_append_right _ hd))
  refine ⟨text, hvalue, ?_⟩
  rw [List.forall_mem_append, List.forall_mem_append, forall_mem_keyText hP hkey]
  exact ⟨fun h => ⟨h.1.1, h.2⟩, fun h => ⟨⟨h.1, hseparator⟩, h.2⟩⟩

mutual

/-- **What is written has only printable code points and those of the strings, escaped.** -/
theorem forall_mem_dumps (hP : ∀ c, isPrintable c = true → P c) :
    ∀ (depth : ℕ) (v : PyValue F) (t : CodeText), dumps o depth v = .ok t →
      ((∀ d ∈ t, P d) ↔ ∀ c ∈ points v, ∀ d ∈ escape o c, P d)
  | _, .none, t, h => by
    cases h
    exact iff_of_true (fun d hd => hP d (isAsciiText_of_all rfl d hd)) (by simp [points])
  | _, .bool b, t, h => by
    cases h
    exact iff_of_true (fun d hd => hP d (isAsciiText_word b d hd)) (by simp [points])
  | _, .int n, t, h =>
    iff_of_true (fun d hd => hP d (intRepr_eq_ok h d hd)) (by simp [points])
  | _, .float x, t, h => by
    cases h
    exact iff_of_true (fun d hd => hP d (isAsciiText_floatRepr x d hd)) (by simp [points])
  | _, .str s, t, h => by
    cases h
    exact forall_mem_quote hP
  | _ + 1, .other _ s, t, h => by
    cases h
    exact forall_mem_quote hP
  | 0, .list _, t, h => by cases h
  | 0, .dict _, t, h => by cases h
  | 0, .other _ _, t, h => by cases h
  | depth + 1, .list items, t, h => by
    obtain ⟨texts, htexts, rfl⟩ := dumps_list.mp h
    have hall := mapM_isOk_iff.mp ⟨texts, htexts⟩
    rw [forall_mem_bracketed hP (by decide) (by decide), forall_mem_mapM htexts, points]
    exact forall_mem_itemTexts hP depth items hall
  | depth + 1, .dict es, t, h => by
    obtain ⟨es', texts, hordered, htexts, rfl⟩ := dumps_dict.mp h
    have hall := mapM_isOk_iff.mp ⟨texts, htexts⟩
    simp only [ordered_eq_ok hordered] at hall
    rw [forall_mem_bracketed hP (by decide) (by decide), forall_mem_mapM htexts, points]
    simp only [ordered_eq_ok hordered]
    exact forall_mem_entryTexts hP depth es hall

theorem forall_mem_itemTexts (hP : ∀ c, isPrintable c = true → P c) :
    ∀ (depth : ℕ) (vs : List (PyValue F)), (∀ x ∈ itemTexts o depth vs, ∃ t, x = .ok t) →
      ((∀ x ∈ itemTexts o depth vs, ∀ t, x = .ok t → ∀ d ∈ t, P d) ↔
        ∀ c ∈ itemPoints vs, ∀ d ∈ escape o c, P d)
  | _, [], _ => by simp [itemTexts, itemPoints]
  | depth, v :: vs, hall => by
    rw [itemTexts, List.forall_mem_cons] at hall
    obtain ⟨⟨t, ht⟩, hall⟩ := hall
    rw [itemTexts, itemPoints, List.forall_mem_cons, List.forall_mem_append,
      forall_mem_itemTexts hP depth vs hall, ← forall_mem_dumps hP depth v t ht, ht]
    simp

theorem forall_mem_entryTexts (hP : ∀ c, isPrintable c = true → P c) :
    ∀ (depth : ℕ) (es : List (PyKey F × PyValue F)),
      (∀ e ∈ entryTexts o depth es, ∃ t, entryText o e = .ok t) →
      ((∀ e ∈ entryTexts o depth es, ∀ t, entryText o e = .ok t → ∀ d ∈ t, P d) ↔
        ∀ c ∈ entryPoints es, ∀ d ∈ escape o c, P d)
  | _, [], _ => by simp [entryTexts, entryPoints]
  | depth, (k, v) :: es, hall => by
    rw [entryTexts, List.forall_mem_cons] at hall
    obtain ⟨⟨t, ht⟩, hall⟩ := hall
    obtain ⟨text, htext, hiff⟩ := forall_mem_entryText hP ht
    rw [entryTexts, entryPoints, List.forall_mem_cons, List.forall_mem_append,
      List.forall_mem_append, forall_mem_entryTexts hP depth es hall,
      ← forall_mem_dumps hP depth v text htext, ← hiff, ht]
    simp

end

lemma letters_low : ∀ l ∈ letters, l.1 < 128 := by decide

/-- Only low code points are escaped when others need not be. -/
lemma forall_mem_rawEscape (hP : ∀ c < 128, P c) {c : ℕ} : (∀ d ∈ rawEscape c, P d) ↔ P c := by
  have hascii : ∀ t, IsAsciiText t → ∀ d ∈ t, P d := by
    intro t ht d hd
    have hprintable := ht d hd
    rw [isPrintable, decide_eq_true_eq] at hprintable
    exact hP d (by omega)
  unfold rawEscape
  split
  · next e hletter =>
    obtain ⟨before, after, hletters, -⟩ := List.lookup_eq_some_iff.mp hletter
    have hmem : (c, e) ∈ letters := by simp [hletters]
    have he := letters_printable (c, e) hmem
    refine iff_of_true (hascii _ ?_) (hP c (letters_low (c, e) hmem))
    exact .cons (by decide) (.cons he fun c hc => absurd hc List.not_mem_nil)
  · split_ifs with hlow
    · exact iff_of_true (hascii _ (isAsciiText_unicodeEscape (by omega))) (hP c (by omega))
    · exact List.forall_mem_singleton

mutual

theorem points_valid : ∀ (v : PyValue F), ∀ c ∈ points v, c < 0x110000
  | .str t | .other _ t => t.valid
  | .list items => itemPoints_valid items
  | .dict es => entryPoints_valid es
  | .none | .bool _ | .int _ | .float _ => by simp [points]

theorem itemPoints_valid : ∀ (vs : List (PyValue F)), ∀ c ∈ itemPoints vs, c < 0x110000
  | [] => by simp [itemPoints]
  | v :: vs => List.forall_mem_append.mpr ⟨points_valid v, itemPoints_valid vs⟩

theorem entryPoints_valid :
    ∀ (es : List (PyKey F × PyValue F)), ∀ c ∈ entryPoints es, c < 0x110000
  | [] => by simp [entryPoints]
  | (k, v) :: es => by
    have hkey : ∀ c ∈ keyPoints k, c < 0x110000 := by
      cases k with
      | str t => exact t.valid
      | _ => exact fun c hc => absurd hc List.not_mem_nil
    exact List.forall_mem_append.mpr
      ⟨List.forall_mem_append.mpr ⟨hkey, points_valid v⟩, entryPoints_valid es⟩

end

lemma encodable_iff {t : CodeText} : encodable t = true ↔ ∀ c ∈ t, isSurrogate c = false := by
  simp [encodable]

lemma isSurrogate_of_printable {c : ℕ} (hc : isPrintable c = true) : isSurrogate c = false := by
  rw [isPrintable, decide_eq_true_eq] at hc
  rw [isSurrogate, decide_eq_false_iff_not]
  omega

/-- Written as it is, a value can be encoded exactly if its strings can. -/
theorem encodable_dumps (ho : o.ensureAscii = false) {depth : ℕ} {v : PyValue F} {t : CodeText}
    (h : dumps o depth v = .ok t) : encodable t = encodable (points v) := by
  rw [Bool.eq_iff_iff, encodable_iff, encodable_iff,
    forall_mem_dumps (fun c hc => isSurrogate_of_printable hc) depth v t h]
  have hraw : ∀ c, escape o c = rawEscape c := fun c => by simp [escape, ho]
  have hlow : ∀ c < 128, isSurrogate c = false := by decide
  simp only [hraw, forall_mem_rawEscape (P := fun d => isSurrogate d = false) hlow]

/-- Written in ASCII, a value has only printable code points. -/
theorem isAsciiText_dumps (ho : o.ensureAscii = true) {depth : ℕ} {v : PyValue F} {t : CodeText}
    (h : dumps o depth v = .ok t) : IsAsciiText t := by
  refine (forall_mem_dumps (fun c hc => hc) depth v t h).mpr fun c hc => ?_
  rw [escape, if_pos ho]
  exact isAsciiText_escape (points_valid v c hc)

/-- What is written is a string. -/
theorem valid_dumps {depth : ℕ} {v : PyValue F} {t : CodeText} (h : dumps o depth v = .ok t) :
    ∀ c ∈ t, c < 0x110000 := by
  have hprintable : ∀ c, isPrintable c = true → c < 0x110000 := fun c hc => by
    rw [isPrintable, decide_eq_true_eq] at hc
    omega
  refine (forall_mem_dumps hprintable depth v t h).mpr fun c hc d hd => ?_
  have hvalid := points_valid v c hc
  unfold escape at hd
  split_ifs at hd
  · exact hprintable d (isAsciiText_escape hvalid d hd)
  · exact (forall_mem_rawEscape (P := fun d => d < 0x110000) fun c hc => by omega).mpr hvalid d hd

end Points

end PyJson

end Habeny.Lib
