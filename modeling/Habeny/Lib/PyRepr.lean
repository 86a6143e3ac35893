import Habeny.Lib.PyJson

/-!
# The Python value of a JSON value, and its text

`json.loads` returns strings, numbers, words, lists and dicts, and `str` of such a value is a text:
a string is its own text, and every other value is written as `repr` writes it, with the strings in
it between quotes and what cannot be printed escaped.

Only a string has surrogates in its text (`encodable_repr`).  Writing raises for integers with too
many digits and for values that are nested too deeply (`repr_isOk`).
-/

namespace Habeny.Lib

open CodeText JsonText

/-! ## Values -/

/-- The string of some code points. -/
def PyStr.ofPoints (t : CodeText) : PyStr where
  points := t.map fun c => if c < 0x110000 then c else 0xFFFD
  valid := by
    intro c hc
    obtain ⟨d, -, rfl⟩ := List.mem_map.mp hc
    split_ifs with hd
    · exact hd
    · decide

namespace PyRepr

variable (F : FloatText) [DecidablePred F.isFloat]

/-- A float that was read. -/
def toFloat : JsonFloat → PyFloat F
  | .finite q => if h : F.isFloat q then .finite q h else .nan
  | .infinite negative => .infinite negative
  | .nan => .nan

mutual

/-- The value that `json.loads` returns. -/
def ofJson : JsonValue → PyValue F
  | .null => .none
  | .bool b => .bool b
  | .int n => .int n
  | .float x => .float (toFloat F x)
  | .str t => .str (.ofPoints t)
  | .list items => .list (ofJsonItems items)
  | .dict es => .dict (ofJsonEntries es)

def ofJsonItems : List JsonValue → List (PyValue F)
  | [] => []
  | v :: vs => ofJson v :: ofJsonItems vs

def ofJsonEntries : List (CodeText × JsonValue) → List (PyKey F × PyValue F)
  | [] => []
  | (k, v) :: es => (.str (.ofPoints k), ofJson v) :: ofJsonEntries es

end

/-! ## Texts -/

/-- The code points that stand for themselves between quotes.  No surrogate is among them. -/
structure Printables where
  printable : ℕ → Bool
  surrogate : ∀ c, isSurrogate c = true → printable c = false

def apostrophe : ℕ := 39

def hex2 (n : ℕ) : CodeText := [hexDigit (n / 16 % 16), hexDigit (n % 16)]

variable (P : Printables)

/-- How a code point is written between quotes. -/
def escape (quote c : ℕ) : CodeText :=
  if c = quote ∨ c = code '\\' then [code '\\', c]
  else if c = 9 then lit "\\t"
  else if c = 10 then lit "\\n"
  else if c = 13 then lit "\\r"
  else if c < 32 ∨ c = 127 then lit "\\x" ++ hex2 c
  else if c < 127 then [c]
  else if P.printable c then [c]
  else if c < 256 then lit "\\x" ++ hex2 c
  else if c < 65536 then lit "\\u" ++ hex4 c
  else lit "\\U" ++ hex4 (c / 65536 % 65536) ++ hex4 (c % 65536)

def quoteOf (t : CodeText) : ℕ :=
  if apostrophe ∈ t ∧ code '"' ∉ t then code '"' else apostrophe

/-- `str.__repr__` -/
def strRepr (t : CodeText) : CodeText :=
  quoteOf t :: (t.flatMap (escape P (quoteOf t)) ++ [quoteOf t])

/-- `float.__repr__` -/
def floatRepr : PyFloat F → CodeText
  | .finite q _ => F.repr q
  | .infinite false => lit "inf"
  | .infinite true => lit "-inf"
  | .nan => lit "nan"

/-- Texts with commas between them, in brackets. -/
def bracketed (opening closing : Char) (texts : List CodeText) : CodeText :=
  code opening :: ((lit ", ").intercalate texts ++ [code closing])

mutual

/-- `repr`, where containers may be nested only so deeply. -/
def repr : ℕ → JsonValue → Except PyError CodeText
  | _, .null => .ok (lit "None")
  | _, .bool b => .ok (if b then lit "True" else lit "False")
  | _, .int n => PyJson.intRepr n
  | _, .float x => .ok (floatRepr F (toFloat F x))
  | _, .str t => .ok (strRepr P t)
  | 0, .list _ => .error .recursionError
  | depth + 1, .list items => do
    let texts ← (reprItems depth items).mapM id
    return bracketed '[' ']' texts
  | 0, .dict _ => .error .recursionError
  | depth + 1, .dict es => do
    let texts ← (reprEntries depth es).mapM id
    return bracketed '{' '}' texts

def reprItems : ℕ → List JsonValue → List (Except PyError CodeText)
  | _, [] => []
  | depth, v :: vs => repr depth v :: reprItems depth vs

def reprEntries : ℕ → List (CodeText × JsonValue) → List (Except PyError CodeText)
  | _, [] => []
  | depth, (k, v) :: es =>
    ((repr depth v).map fun t => strRepr P k ++ lit ": " ++ t) :: reprEntries depth es

end

/-- `str` -/
def str (depth : ℕ) : JsonValue → Except PyError PyStr
  | .str t => .ok (.ofPoints t)
  | v => (repr F P depth v).map .ofPoints

mutual

/-- Whether a value is written. -/
def fits : ℕ → JsonValue → Bool
  | _, .int n => PyJson.fewDigits n
  | 0, .list _ => false
  | depth + 1, .list items => itemsFit depth items
  | 0, .dict _ => false
  | depth + 1, .dict es => entriesFit depth es
  | _, _ => true

def itemsFit : ℕ → List JsonValue → Bool
  | _, [] => true
  | depth, v :: vs => fits depth v && itemsFit depth vs

def entriesFit : ℕ → List (CodeText × JsonValue) → Bool
  | _, [] => true
  | depth, (_, v) :: es => fits depth v && entriesFit depth es

end

/-! ## When a value is written -/

variable {F P}

lemma mapM_id_isOk {xs : List (Except PyError CodeText)} :
    (∃ ts, xs.mapM id = .ok ts) ↔ ∀ x ∈ xs, ∃ t, x = .ok t := PyJson.mapM_isOk_iff

lemma repr_list_isOk {depth : ℕ} {items : List JsonValue} :
    (∃ t, repr F P (depth + 1) (.list items) = .ok t) ↔
      ∀ x ∈ reprItems F P depth items, ∃ t, x = .ok t := by
  rw [← mapM_id_isOk, repr]
  cases (reprItems F P depth items).mapM id <;> simp [bind, Except.bind, pure, Except.pure]

lemma repr_dict_isOk {depth : ℕ} {es : List (CodeText × JsonValue)} :
    (∃ t, repr F P (depth + 1) (.dict es) = .ok t) ↔
      ∀ x ∈ reprEntries F P depth es, ∃ t, x = .ok t := by
  rw [← mapM_id_isOk, repr]
  cases (reprEntries F P depth es).mapM id <;> simp [bind, Except.bind, pure, Except.pure]

mutual

/-- **Exactly the values that fit are written.** -/
theorem repr_isOk : ∀ (depth : ℕ) (v : JsonValue),
    (∃ t, repr F P depth v = .ok t) ↔ fits depth v = true
  | _, .null | _, .bool _ | _, .float _ | _, .str _ => by simp [repr, fits]
  | _, .int n => by
    rw [repr, fits]
    exact PyJson.intRepr_isOk_iff
  | 0, .list _ | 0, .dict _ => by simp [repr, fits]
  | depth + 1, .list items => by
    rw [repr_list_isOk, fits]
    exact reprItems_isOk depth items
  | depth + 1, .dict es => by
    rw [repr_dict_isOk, fits]
    exact reprEntries_isOk depth es

theorem reprItems_isOk : ∀ (depth : ℕ) (vs : List JsonValue),
    (∀ x ∈ reprItems F P depth vs, ∃ t, x = .ok t) ↔ itemsFit depth vs = true
  | _, [] => by simp [reprItems, itemsFit]
  | depth, v :: vs => by
    rw [reprItems, itemsFit, List.forall_mem_cons, Bool.and_eq_true, repr_isOk depth v,
      reprItems_isOk depth vs]

theorem reprEntries_isOk : ∀ (depth : ℕ) (es : List (CodeText × JsonValue)),
    (∀ x ∈ reprEntries F P depth es, ∃ t, x = .ok t) ↔ entriesFit depth es = true
  | _, [] => by simp [reprEntries, entriesFit]
  | depth, (k, v) :: es => by
    have hentry : (∃ t, (repr F P depth v).map (fun t => strRepr P k ++ lit ": " ++ t) = .ok t) ↔
        ∃ t, repr F P depth v = .ok t := by
      cases repr F P depth v <;> simp [Except.map]
    rw [reprEntries, entriesFit, List.forall_mem_cons, Bool.and_eq_true, hentry, repr_isOk depth v,
      reprEntries_isOk depth es]

end

lemma str_of_not_text {depth : ℕ} {v : JsonValue} (h : ∀ u, v ≠ .str u) :
    str F P depth v = (repr F P depth v).map .ofPoints := by
  cases v with
  | str u => exact absurd rfl (h u)
  | _ => rfl

lemma str_isOk {depth : ℕ} {v : JsonValue} :
    (∃ t, str F P depth v = .ok t) ↔ fits depth v = true := by
  by_cases h : ∃ u, v = .str u
  · obtain ⟨u, rfl⟩ := h
    simp [str, fits]
  · rw [str_of_not_text fun u hu => h ⟨u, hu⟩, ← repr_isOk (F := F) (P := P)]
    cases repr F P depth v <;> simp [Except.map]

/-! ## What is written can be encoded -/

lemma encodable_of_ascii {t : CodeText} (h : IsAsciiText t) : encodable t = true :=
  PyJson.encodable_iff.mpr fun c hc => PyJson.isSurrogate_of_printable (h c hc)

lemma isSurrogate_hexDigit : ∀ m < 16, isSurrogate (hexDigit m) = false := by decide

lemma encodable_hex2 (n : ℕ) : encodable (hex2 n) = true := by
  simp [encodable, hex2, isSurrogate_hexDigit _ (Nat.mod_lt _ _)]

lemma encodable_hex4 {n : ℕ} (hn : n < 65536) : encodable (hex4 n) = true := by
  simp [encodable, hex4, isSurrogate_hexDigit _ (Nat.mod_lt _ _),
    isSurrogate_hexDigit (n / 4096) (by omega)]

lemma encodable_escape {quote : ℕ} (hquote : quote < 128) (c : ℕ) :
    encodable (escape P quote c) = true := by
  have hlow : ∀ d < 128, isSurrogate d = false := by decide
  have hone : ∀ d, isSurrogate d = false → encodable [d] = true := fun d hd => by
    simp [encodable, hd]
  unfold escape
  split_ifs with hspecial h9 h10 h13 hcontrol hascii hprintable h256 h65536
  · have hc : c < 128 := by
      rcases hspecial with rfl | rfl
      · exact hquote
      · decide
    have hback : isSurrogate (code '\\') = false := by decide
    simp [encodable, hlow c hc, hback]
  · decide
  · decide
  · decide
  · rw [encodable_append, encodable_hex2]
    decide
  · exact hone c (hlow c (by omega))
  · refine hone c (Bool.eq_false_iff.mpr fun hc => ?_)
    exact absurd hprintable (by simp [P.surrogate c hc])
  · rw [encodable_append, encodable_hex2]
    decide
  · rw [encodable_append, encodable_hex4 (by omega)]
    decide
  · rw [encodable_append, encodable_append, encodable_hex4 (by omega), encodable_hex4 (by omega)]
    decide

lemma encodable_flatMap {f : ℕ → CodeText} (hf : ∀ c, encodable (f c) = true) (t : CodeText) :
    encodable (t.flatMap f) = true := by
  induction t with
  | nil => rfl
  | cons c t ih => rw [List.flatMap_cons, encodable_append, hf, ih, Bool.and_self]

lemma encodable_strRepr (t : CodeText) : encodable (strRepr P t) = true := by
  have hquote : quoteOf t < 128 := by
    unfold quoteOf
    split_ifs <;> decide
  have hone : encodable [quoteOf t] = true := by
    have hlow : ∀ d < 128, encodable [d] = true := by decide
    exact hlow _ hquote
  have hcons : strRepr P t = [quoteOf t] ++ (t.flatMap (escape P (quoteOf t)) ++ [quoteOf t]) := rfl
  rw [hcons, encodable_append, encodable_append, hone, encodable_flatMap (encodable_escape hquote)]
  rfl

lemma encodable_bracketed {opening closing : Char} (ho : encodable [code opening] = true)
    (hc : encodable [code closing] = true) {texts : List CodeText}
    (h : ∀ t ∈ texts, encodable t = true) : encodable (bracketed opening closing texts) = true := by
  have hjoin : encodable ((lit ", ").intercalate texts) = true := by
    induction texts with
    | nil => rfl
    | cons t texts ih =>
      have ht := h t List.mem_cons_self
      have hrest := ih fun u hu => h u (List.mem_cons_of_mem t hu)
      cases texts with
      | nil => simpa using ht
      | cons u texts =>
        rw [List.intercalate_cons_cons, encodable_append, encodable_append, ht, hrest]
        decide
  have hcons : bracketed opening closing texts =
      [code opening] ++ ((lit ", ").intercalate texts ++ [code closing]) := rfl
  rw [hcons, encodable_append, encodable_append, ho, hjoin, hc]
  rfl

omit [DecidablePred F.isFloat] in
lemma encodable_floatRepr (x : PyFloat F) : encodable (floatRepr F x) = true := by
  rcases x with ⟨q, hq⟩ | ⟨_ | _⟩ | _
  · exact encodable_of_ascii (F.isFloatText q hq).isAsciiText
  · exact (by decide : encodable (lit "inf") = true)
  · exact (by decide : encodable (lit "-inf") = true)
  · exact (by decide : encodable (lit "nan") = true)

lemma mapM_id_mem {xs : List (Except PyError CodeText)} {ts : List CodeText}
    (h : xs.mapM id = .ok ts) {t : CodeText} (ht : t ∈ ts) : .ok t ∈ xs := by
  have hpairs := PyJson.mapM_eq_ok_iff.mp h
  clear h
  induction hpairs with
  | nil => exact absurd ht List.not_mem_nil
  | cons hx _ ih =>
    rcases List.mem_cons.mp ht with rfl | ht
    · exact List.mem_cons.mpr (.inl hx.symm)
    · exact List.mem_cons_of_mem _ (ih ht)

mutual

/-- **The text of a value has no surrogates** between its quotes and around them. -/
theorem encodable_repr : ∀ (depth : ℕ) (v : JsonValue) {t : CodeText},
    repr F P depth v = .ok t → encodable t = true
  | _, .null, _, h => by
    rw [repr] at h
    obtain rfl := Except.ok.inj h
    decide
  | _, .bool b, _, h => by
    rw [repr] at h
    obtain rfl := Except.ok.inj h
    cases b <;> decide
  | _, .int n, _, h => by
    rw [repr] at h
    exact encodable_of_ascii (PyJson.intRepr_eq_ok h)
  | _, .float x, _, h => by
    rw [repr] at h
    obtain rfl := Except.ok.inj h
    exact encodable_floatRepr _
  | _, .str t, _, h => by
    rw [repr] at h
    obtain rfl := Except.ok.inj h
    exact encodable_strRepr t
  | 0, .list _, _, h | 0, .dict _, _, h => by simp [repr] at h
  | depth + 1, .list items, _, h => by
    rw [repr] at h
    cases htexts : (reprItems F P depth items).mapM id with
    | error e => simp [htexts, bind, Except.bind] at h
    | ok texts =>
      simp only [htexts, bind, Except.bind, pure, Except.pure, Except.ok.injEq] at h
      rw [← h]
      exact encodable_bracketed (by decide) (by decide) fun t ht =>
        encodable_reprItems depth items (mapM_id_mem htexts ht)
  | depth + 1, .dict es, _, h => by
    rw [repr] at h
    cases htexts : (reprEntries F P depth es).mapM id with
    | error e => simp [htexts, bind, Except.bind] at h
    | ok texts =>
      simp only [htexts, bind, Except.bind, pure, Except.pure, Except.ok.injEq] at h
      rw [← h]
      exact encodable_bracketed (by decide) (by decide) fun t ht =>
        encodable_reprEntries depth es (mapM_id_mem htexts ht)

theorem encodable_reprItems : ∀ (depth : ℕ) (vs : List JsonValue) {t : CodeText},
    .ok t ∈ reprItems F P depth vs → encodable t = true
  | _, [], _, h => absurd h (by simp [reprItems])
  | depth, v :: vs, _, h => by
    rw [reprItems, List.mem_cons] at h
    rcases h with h | h
    · exact encodable_repr depth v h.symm
    · exact encodable_reprItems depth vs h

theorem encodable_reprEntries : ∀ (depth : ℕ) (es : List (CodeText × JsonValue)) {t : CodeText},
    .ok t ∈ reprEntries F P depth es → encodable t = true
  | _, [], _, h => absurd h (by simp [reprEntries])
  | depth, (k, v) :: es, _, h => by
    rw [reprEntries, List.mem_cons] at h
    rcases h with h | h
    · cases hv : repr F P depth v with
      | error e => simp [hv, Except.map] at h
      | ok t =>
        simp only [hv, Except.map, Except.ok.injEq] at h
        have hseparator : encodable (lit ": ") = true := by decide
        rw [h, encodable_append, encodable_append, encodable_strRepr, hseparator,
          encodable_repr depth v hv]
        rfl
    · exact encodable_reprEntries depth es h

end

lemma encodable_ofPoints (t : CodeText) : (PyStr.ofPoints t).encodable = encodable t := by
  rw [PyStr.encodable, PyStr.ofPoints, Bool.eq_iff_iff, PyJson.encodable_iff, PyJson.encodable_iff,
    List.forall_mem_map]
  refine forall₂_congr fun c _ => ?_
  split_ifs with hc
  · rfl
  · have hreplaced : isSurrogate 0xFFFD = false := by decide
    have hlarge : isSurrogate c = false := by
      rw [isSurrogate, decide_eq_false_iff_not]
      omega
    rw [hreplaced, hlarge]

/-- **The text of a value can be encoded**, unless it is a string with surrogates. -/
theorem encodable_str {depth : ℕ} {v : JsonValue} {t : PyStr} (h : str F P depth v = .ok t) :
    t.encodable = true ↔ ∀ u, v = .str u → encodable u = true := by
  by_cases hv : ∃ u, v = .str u
  · obtain ⟨u, rfl⟩ := hv
    rw [str] at h
    rw [← Except.ok.inj h, encodable_ofPoints]
    simp
  · rw [str_of_not_text fun u hu => hv ⟨u, hu⟩] at h
    cases hrepr : repr F P depth v with
    | error e => simp [hrepr, Except.map] at h
    | ok u =>
      simp only [hrepr, Except.map, Except.ok.injEq] at h
      refine iff_of_true ?_ fun u hu => absurd ⟨u, hu⟩ hv
      rw [← h, encodable_ofPoints, encodable_repr depth v hrepr]

end PyRepr

end Habeny.Lib
