import Habeny.Lib.PyJson

/-!
# Reading JSON within limits

`json.loads` raises a `ValueError` for what is no JSON and for integers with too many digits, and a
`RecursionError` where containers are nested too deeply.  `loads` reads a text from left to right
and raises what comes first.

What `json.dumps` writes is read back (`loads_dumps`): `reads` says as which value, and whether the
nesting is in the way.
-/

namespace Habeny.Lib

/-- What reading may raise. -/
inductive ScanError where
  | value
  | recursion
  deriving DecidableEq

namespace JsonScan

open CodeText JsonText

/-- How deeply containers may be nested, and how many digits an integer may have. -/
structure Limits where
  depth : ℕ
  digits : ℕ → Bool

variable (F : FloatText) (L : Limits)

/-- A value at the beginning of a text, and the rest of the text. -/
abbrev Scanned (α : Type) := Except ScanError (α × CodeText)

def orValueError {α : Type} : Option α → Except ScanError α
  | some a => .ok a
  | none => .error .value

lemma map_eq_ok_iff {α β ε : Type*} {f : α → β} {x : Except ε α} {b : β} :
    x.map f = .ok b ↔ ∃ a, x = .ok a ∧ f a = b := by
  cases x <;> simp [Except.map]

/-- A number at the beginning of a text. -/
def number (s : CodeText) : Scanned JsonValue :=
  match matchInteger s with
  | none => .error .value
  | some (integer, s) =>
    let (fraction, s) := matchFraction s
    let (exponent, s) := matchExponent s
    if fraction = [] ∧ exponent = [] then
      if L.digits (integer.filter isDigit).length then
        .ok (.int (Json.readInt (integer.map Char.ofNat)), s)
      else .error .value
    else .ok (.float (F.read (integer ++ fraction ++ exponent)), s)

/-- A word or a number. -/
def scalar (s : CodeText) : Scanned JsonValue :=
  match word s with
  | some r => .ok r
  | none => number F L s

mutual

/-- A value at the beginning of a text, where so many containers may still be entered.  The second
number bounds the calls, each of which is for a shorter text. -/
def value : ℕ → ℕ → CodeText → Scanned JsonValue
  | _, 0, _ => .error .value
  | _, _ + 1, [] => .error .value
  | depth, n + 1, c :: s =>
    if c = code '"' then
      (orValueError (readString s)).map fun r => (.str r.1, r.2)
    else if c = code '[' then
      match depth, skip s with
      | 0, _ => .error .recursion
      | _ + 1, [] => .error .value
      | depth + 1, d :: s' =>
        if d = code ']' then .ok (.list [], s')
        else (items depth n (d :: s')).map fun r => (.list r.1, r.2)
    else if c = code '{' then
      match depth, skip s with
      | 0, _ => .error .recursion
      | _ + 1, [] => .error .value
      | depth + 1, d :: s' =>
        if d = code '}' then .ok (.dict [], s')
        else (entries depth n (d :: s')).map fun r => (.dict (ofEntries r.1), r.2)
    else scalar F L (c :: s)

/-- The items of a list, up to the bracket that closes it. -/
def items : ℕ → ℕ → CodeText → Scanned (List JsonValue)
  | _, 0, _ => .error .value
  | depth, n + 1, s =>
    match value depth n s with
    | .error e => .error e
    | .ok (v, s) =>
      match skip s with
      | [] => .error .value
      | c :: s =>
        if c = code ']' then .ok ([v], s)
        else if c = code ',' then (items depth n (skip s)).map fun r => (v :: r.1, r.2)
        else .error .value

/-- The entries of an object, up to the brace that closes it. -/
def entries : ℕ → ℕ → CodeText → Scanned JsonEntries
  | _, 0, _ => .error .value
  | _, _ + 1, [] => .error .value
  | depth, n + 1, q :: s =>
    if q = code '"' then
      match readString s with
      | none => .error .value
      | some (k, s) =>
        match skip s with
        | [] => .error .value
        | c :: s =>
          if c = code ':' then
            match value depth n (skip s) with
            | .error e => .error e
            | .ok (v, s) =>
              match skip s with
              | [] => .error .value
              | c :: s =>
                if c = code '}' then .ok ([(k, v)], s)
                else if c = code ',' then
                  (entries depth n (skip s)).map fun r => ((k, v) :: r.1, r.2)
                else .error .value
          else .error .value
    else .error .value

end

/-- `json.loads` of a text -/
def loads (s : CodeText) : Except ScanError JsonValue :=
  match value F L L.depth (s.length + 1) (skip s) with
  | .error e => .error e
  | .ok (v, rest) => if skip rest = [] then .ok v else .error .value

/-! ## Strings are read back -/

/-- The text that a written string is read as. -/
def readText (o : DumpOptions) (t : CodeText) : CodeText :=
  if o.ensureAscii then join (t.flatMap partsOf) else t

section Strings

variable {o : DumpOptions} {c : ℕ} {t : CodeText}

/-- The parts of a code point that is only escaped where it has to be. -/
def rawPartsOf (c : ℕ) : List Part :=
  if (letters.lookup c).isNone ∧ c < 32 then [.unicode c] else [.plain c]

lemma parts_rawEscape (c : ℕ) (s : CodeText) :
    parts (PyJson.rawEscape c ++ s) = (parts s).map fun r => (rawPartsOf c ++ r.1, r.2) := by
  rw [PyJson.rawEscape, rawPartsOf]
  cases hletter : letters.lookup c with
  | some e => exact parts_letter hletter s
  | none =>
    simp only [Option.isNone_none, true_and]
    split_ifs with hlow
    · exact parts_unicodeEscape (by omega) s
    · have hquote : c ≠ code '"' := by
        rintro rfl
        exact absurd hletter (by decide)
      have hbackslash : c ≠ code '\\' := by
        rintro rfl
        exact absurd hletter (by decide)
      rw [List.singleton_append]
      conv_lhs => rw [parts.eq_def]
      simp only [hquote, hbackslash, hlow, if_false]
      rfl

lemma parts_raw (t s : CodeText) :
    parts (t.flatMap PyJson.rawEscape ++ code '"' :: s) = some (t.flatMap rawPartsOf, s) := by
  induction t with
  | nil =>
    rw [List.flatMap_nil, List.nil_append, parts.eq_def]
    rfl
  | cons c t ih =>
    rw [List.flatMap_cons, List.append_assoc, parts_rawEscape, ih]
    rfl

lemma join_rawPartsOf (t : CodeText) : join (t.flatMap rawPartsOf) = t := by
  induction t with
  | nil => rfl
  | cons c t ih =>
    rw [List.flatMap_cons, rawPartsOf]
    split_ifs with hlow
    · rw [List.singleton_append, join_unicode, ih]
      rintro l - ⟨hhigh, -⟩
      rw [isHigh, decide_eq_true_eq] at hhigh
      omega
    · rw [List.singleton_append, join, ih]

/-- A written string is read. -/
lemma readString_quoted (ht : ∀ c ∈ t, c < 0x110000) (s : CodeText) :
    readString (t.flatMap (PyJson.escape o) ++ code '"' :: s) = some (readText o t, s) := by
  have hescape : PyJson.escape o = if o.ensureAscii then escape else PyJson.rawEscape := by
    funext c
    rw [PyJson.escape]
    split_ifs <;> rfl
  rw [readString, readText, hescape]
  split_ifs with hascii
  · rw [parts_escaped ht]
    rfl
  · rw [parts_raw, Option.map_some, join_rawPartsOf]

lemma readText_of_joined (ht : IsJoined t) : readText o t = t := by
  rw [readText]
  split_ifs
  · exact join_partsOf ht
  · rfl

end Strings

/-! ## Containers are read back -/

/-- The separators are a comma and a colon, with blanks after them. -/
structure Separated (o : DumpOptions) : Prop where
  item : ∃ blanks, o.itemSeparator = code ',' :: blanks ∧ ∀ c ∈ blanks, isBlank c = true
  key : ∃ blanks, o.keySeparator = code ':' :: blanks ∧ ∀ c ∈ blanks, isBlank c = true

variable {F L}

/-- A text that is read as a value, or not, whatever follows it. -/
structure Reads (F : FloatText) (L : Limits) (depth : ℕ) (t : CodeText)
    (r : Except ScanError JsonValue) : Prop where
  head : ∃ c rest, t = c :: rest ∧ isBlank c = false ∧ c ≠ code ']' ∧ c ≠ code '}'
  value : ∀ n, t.length ≤ n → ∀ s, NumberEnds s →
    JsonScan.value F L depth n (t ++ s) = r.map fun v => (v, s)

lemma skip_blanks {blanks : CodeText} (h : ∀ c ∈ blanks, isBlank c = true) (s : CodeText) :
    skip (blanks ++ s) = skip s := by
  rw [skip, skip, List.dropWhile_append_of_pos h]

lemma Reads.skip {depth : ℕ} {t : CodeText} {r : Except ScanError JsonValue}
    (h : Reads F L depth t r) (s : CodeText) : JsonText.skip (t ++ s) = t ++ s := by
  obtain ⟨c, rest, rfl, hc, -⟩ := h.head
  exact skip_of_head hc _

lemma Reads.length_pos {depth : ℕ} {t : CodeText} {r : Except ScanError JsonValue}
    (h : Reads F L depth t r) : 0 < t.length := by
  obtain ⟨c, rest, rfl, -⟩ := h.head
  exact Nat.succ_pos _

/-- What follows the first of some texts in brackets. -/
def following (o : DumpOptions) (closing : ℕ) (ts : List CodeText) (s : CodeText) : CodeText :=
  (ts.flatMap fun u => o.itemSeparator ++ u) ++ closing :: s

lemma following_nil (o : DumpOptions) (closing : ℕ) (s : CodeText) :
    following o closing [] s = closing :: s := rfl

lemma following_cons (o : DumpOptions) (closing : ℕ) (u : CodeText) (ts : List CodeText)
    (s : CodeText) :
    following o closing (u :: ts) s = o.itemSeparator ++ (u ++ following o closing ts s) := by
  simp [following]

lemma bracketed_cons (o : DumpOptions) (opening closing : Char) (t : CodeText)
    (ts : List CodeText) (s : CodeText) :
    PyJson.bracketed o opening closing (t :: ts) ++ s =
      code opening :: (t ++ following o (code closing) ts s) := by
  have hintercalate : o.itemSeparator.intercalate (t :: ts) =
      t ++ ts.flatMap fun u => o.itemSeparator ++ u := by
    induction ts generalizing t with
    | nil => simp [List.intercalate]
    | cons u ts ih =>
      rw [List.flatMap_cons, List.append_assoc, ← ih u]
      simp [List.intercalate, List.intersperse]
  rw [PyJson.bracketed, hintercalate, following]
  simp

lemma numberEnds_bracket : NumberEnds [code ']'] := fun c hc => by cases hc; decide

lemma numberEnds_brace : NumberEnds [code '}'] := fun c hc => by cases hc; decide

section Following

variable {o : DumpOptions} (ho : Separated o) {depth : ℕ}

include ho

/-- A number ends before a comma or a bracket. -/
lemma numberEnds_following {closing : ℕ} (hclosing : NumberEnds [closing]) (ts : List CodeText)
    (s : CodeText) : NumberEnds (following o closing ts s) := by
  obtain ⟨blanks, hitem, -⟩ := ho.item
  cases ts with
  | nil =>
    rw [following_nil]
    exact fun c hc => hclosing c hc
  | cons u ts =>
    rw [following_cons, hitem]
    exact fun c hc => by cases hc; decide

lemma length_following_cons (closing : ℕ) (u : CodeText) (ts : List CodeText) :
    u.length + (following o closing ts []).length + 1 ≤
      (following o closing (u :: ts) []).length := by
  obtain ⟨blanks, hitem, -⟩ := ho.item
  rw [following_cons, hitem]
  simp only [List.cons_append, List.length_cons, List.length_append]
  omega

lemma items_reads {t : CodeText} {ts : List CodeText} {r : Except ScanError JsonValue}
    {rs : List (Except ScanError JsonValue)} (hr : Reads F L depth t r)
    (hrs : List.Forall₂ (Reads F L depth) ts rs) {n : ℕ}
    (hn : t.length + (following o (code ']') ts []).length ≤ n) (s : CodeText) :
    items F L depth n (t ++ following o (code ']') ts s) =
      ((r :: rs).mapM id).map fun vs => (vs, s) := by
  induction hrs generalizing t r n with
  | nil =>
    obtain ⟨n, rfl⟩ : ∃ m, n = m + 1 := ⟨n - 1, by simp [following] at hn; omega⟩
    have hends := numberEnds_following ho numberEnds_bracket [] s
    rw [items, hr.value n (by simp [following] at hn; omega) _ hends]
    cases r with
    | error e => rfl
    | ok v => rfl
  | @cons u r' ts rs hr' hrest ih =>
    obtain ⟨blanks, hitem, hblanks⟩ := ho.item
    have hends := numberEnds_following ho numberEnds_bracket (u :: ts) s
    have hlength := length_following_cons ho (code ']') u ts
    have hpos := hr.length_pos
    obtain ⟨n, rfl⟩ : ∃ m, n = m + 1 := ⟨n - 1, by omega⟩
    have hih := ih hr' (n := n) (by omega)
    rw [items, hr.value n (by omega) _ hends]
    cases r with
    | error e => rfl
    | ok v =>
      have hskip : skip (following o (code ']') (u :: ts) s) =
          code ',' :: (blanks ++ (u ++ following o (code ']') ts s)) := by
        rw [following_cons, hitem]
        rfl
      simp only [Except.map, hskip]
      rw [if_neg (by decide), if_pos trivial, skip_blanks hblanks, hr'.skip, hih]
      rcases r' with e | v'
      · rfl
      · simp only [List.mapM_cons, id_eq]
        rcases List.mapM id rs with e | vs <;> rfl

/-- A key, with the text of its value and what that is read as. -/
structure Written where
  key : CodeText
  text : CodeText
  result : Except ScanError JsonValue

/-- The text of an entry. -/
def Written.entry (o : DumpOptions) (e : Written) : CodeText :=
  PyJson.quote o e.key ++ o.keySeparator ++ e.text

/-- What the entry is read as. -/
def Written.read (o : DumpOptions) (e : Written) : Except ScanError (CodeText × JsonValue) :=
  e.result.map fun v => (readText o e.key, v)

structure Written.Reads (F : FloatText) (L : Limits) (depth : ℕ) (e : Written) : Prop where
  valid : ∀ c ∈ e.key, c < 0x110000
  text : JsonScan.Reads F L depth e.text e.result

/-- One entry is read, and what follows it looked at. -/
lemma entries_entry {e : Written} (he : e.Reads F L depth) {n : ℕ} (hn : e.text.length ≤ n)
    {rest : CodeText} (hends : NumberEnds rest) :
    entries F L depth (n + 1) (e.entry o ++ rest) =
      match e.read o with
      | .error error => .error error
      | .ok entry =>
        match skip rest with
        | [] => .error .value
        | c :: s =>
          if c = code '}' then .ok ([entry], s)
          else if c = code ',' then
            (entries F L depth n (skip s)).map fun r => (entry :: r.1, r.2)
          else .error .value := by
  obtain ⟨blanks, hkey, hblanks⟩ := ho.key
  have htext : e.entry o ++ rest = code '"' :: (e.key.flatMap (PyJson.escape o) ++
      code '"' :: code ':' :: (blanks ++ (e.text ++ rest))) := by
    rw [Written.entry, hkey]
    simp [PyJson.quote]
  have hcolon : isBlank (code ':') = false := by decide
  rw [htext, entries, if_pos rfl, readString_quoted he.valid]
  simp only [skip_of_head hcolon, if_true, skip_blanks hblanks, he.text.skip,
    he.text.value n hn _ hends, Written.read]
  cases e.result with
  | error error => rfl
  | ok v => rfl

lemma length_text_lt_entry (e : Written) : e.text.length + 2 ≤ (e.entry o).length := by
  obtain ⟨blanks, hkey, -⟩ := ho.key
  rw [Written.entry, hkey]
  simp only [PyJson.quote, List.length_append, List.length_cons]
  omega

lemma entries_reads {e : Written} {es : List Written} (he : e.Reads F L depth)
    (hes : ∀ e' ∈ es, e'.Reads F L depth) {n : ℕ}
    (hn : (e.entry o).length + (following o (code '}') (es.map (Written.entry o)) []).length ≤ n)
    (s : CodeText) :
    entries F L depth n (e.entry o ++ following o (code '}') (es.map (Written.entry o)) s) =
      ((e :: es).mapM (Written.read o)).map fun vs => (vs, s) := by
  induction es generalizing e n with
  | nil =>
    have hlength := length_text_lt_entry ho e
    obtain ⟨n, rfl⟩ : ∃ m, n = m + 1 := ⟨n - 1, by omega⟩
    rw [entries_entry ho he (by omega) (numberEnds_following ho numberEnds_brace _ s)]
    cases hread : e.read o with
    | error error =>
      rw [List.mapM_cons, hread]
      rfl
    | ok entry =>
      rw [List.mapM_cons, hread, List.mapM_nil]
      rfl
  | cons e' es ih =>
    obtain ⟨blanks, hitem, hblanks⟩ := ho.item
    have hlength := length_text_lt_entry ho e
    have hfollowing := length_following_cons ho (code '}') (e'.entry o) (es.map (Written.entry o))
    obtain ⟨he', hes⟩ := List.forall_mem_cons.mp hes
    rw [List.map_cons] at hn ⊢
    obtain ⟨n, rfl⟩ : ∃ m, n = m + 1 := ⟨n - 1, by omega⟩
    have hih := ih he' hes (n := n) (by omega)
    have hskip : skip (following o (code '}') (e'.entry o :: es.map (Written.entry o)) s) =
        code ',' :: (blanks ++ (e'.entry o ++
          following o (code '}') (es.map (Written.entry o)) s)) := by
      rw [following_cons, hitem]
      rfl
    have hquote : ∀ rest, skip (e'.entry o ++ rest) = e'.entry o ++ rest :=
      fun rest => skip_of_head (by decide) _
    rw [entries_entry ho he (by omega) (numberEnds_following ho numberEnds_brace _ s)]
    cases hread : e.read o with
    | error error =>
      rw [List.mapM_cons (a := e), hread]
      rfl
    | ok entry =>
      simp only [hskip]
      rw [if_neg (by decide), if_pos trivial, skip_blanks hblanks, hquote, hih]
      rw [List.mapM_cons (a := e), hread]
      rcases (e' :: es).mapM (Written.read o) with error | vs
      · rfl
      · rfl

/-! ## Values are read back -/

lemma reads_list {ts : List CodeText} {rs : List (Except ScanError JsonValue)}
    (h : List.Forall₂ (Reads F L depth) ts rs) :
    Reads F L (depth + 1) (PyJson.bracketed o '[' ']' ts) ((rs.mapM id).map .list) where
  head := ⟨code '[', _, rfl, by decide, by decide, by decide⟩
  value := by
    rintro n hn s -
    obtain ⟨n, rfl⟩ : ∃ m, n = m + 1 := ⟨n - 1, by simp [PyJson.bracketed] at hn; omega⟩
    cases h with
    | nil =>
      rw [value.eq_def]
      rfl
    | @cons t r ts rs hr hrest =>
      obtain ⟨c, rest, hhead, hblank, hc, -⟩ := hr.head
      have hlength := congrArg List.length (bracketed_cons o '[' ']' t ts [])
      rw [List.append_nil] at hlength
      simp only [List.length_cons, List.length_append] at hlength
      have hitems := items_reads ho hr hrest (n := n) (by omega) s
      have hskip := hr.skip (following o (code ']') ts s)
      rw [hhead, List.cons_append] at hitems hskip
      rw [bracketed_cons, value.eq_def, hhead, List.cons_append]
      simp only [hskip, hc, if_false, hitems]
      rw [if_neg (by decide), if_pos trivial]
      rcases (r :: rs).mapM id with error | vs
      · rfl
      · rfl

lemma reads_dict {es : List Written} (h : ∀ e ∈ es, e.Reads F L depth) :
    Reads F L (depth + 1) (PyJson.bracketed o '{' '}' (es.map (Written.entry o)))
      ((es.mapM (Written.read o)).map fun entries => .dict (ofEntries entries)) where
  head := ⟨code '{', _, rfl, by decide, by decide, by decide⟩
  value := by
    rintro n hn s -
    obtain ⟨n, rfl⟩ : ∃ m, n = m + 1 := ⟨n - 1, by simp [PyJson.bracketed] at hn; omega⟩
    cases es with
    | nil =>
      rw [value.eq_def]
      rfl
    | cons e es =>
      obtain ⟨he, hes⟩ := List.forall_mem_cons.mp h
      have hlength := congrArg List.length
        (bracketed_cons o '{' '}' (e.entry o) (es.map (Written.entry o)) [])
      rw [List.append_nil] at hlength
      simp only [List.map_cons, List.length_cons, List.length_append] at hlength hn
      have hentries := entries_reads ho he hes (n := n) (by omega) s
      have hhead : e.entry o = code '"' :: ((e.entry o).tail) := rfl
      have hskip : skip (e.entry o ++ following o (code '}') (es.map (Written.entry o)) s) =
          e.entry o ++ following o (code '}') (es.map (Written.entry o)) s :=
        skip_of_head (by decide) _
      rw [hhead, List.cons_append] at hentries hskip
      rw [List.map_cons, bracketed_cons, value.eq_def, hhead, List.cons_append]
      simp only [hskip, hentries]
      rw [if_neg (by decide), if_neg (by decide), if_pos trivial, if_neg (by decide)]
      rcases (e :: es).mapM (Written.read o) with error | vs
      · rfl
      · rfl

end Following

lemma reads_string {t : CodeText} (ht : ∀ c ∈ t, c < 0x110000) (o : DumpOptions) (depth : ℕ) :
    Reads F L depth (PyJson.quote o t) (.ok (.str (readText o t))) where
  head := ⟨code '"', _, rfl, by decide, by decide, by decide⟩
  value := by
    rintro n hn s -
    obtain ⟨n, rfl⟩ : ∃ m, n = m + 1 := ⟨n - 1, by simp [PyJson.quote] at hn; omega⟩
    have hquote : PyJson.quote o t ++ s =
        code '"' :: (t.flatMap (PyJson.escape o) ++ code '"' :: s) := by
      simp [PyJson.quote]
    rw [hquote, value.eq_def]
    simp only [if_true, readString_quoted ht]
    rfl

lemma reads_word (w : CodeText × JsonValue) (hw : w ∈ words) (depth : ℕ) :
    Reads F L depth w.1 (.ok w.2) := by
  simp only [words, List.mem_cons, List.not_mem_nil, or_false] at hw
  rcases hw with rfl | rfl | rfl | rfl | rfl | rfl
  all_goals
    refine ⟨⟨_, _, rfl, by decide, by decide, by decide⟩, fun n hn s _ => ?_⟩
    obtain ⟨n, rfl⟩ : ∃ m, n = m + 1 := ⟨n - 1, by simp [lit] at hn; omega⟩
    rw [value.eq_def]
    rfl

/-- How a number begins. -/
lemma head_integer {t : CodeText} (ht : IsInteger t) :
    ∃ c rest, t = c :: rest ∧ (48 ≤ c ∧ c ≤ 57 ∨ c = 45) := by
  obtain ⟨digits, hdigits, -, rfl | rfl⟩ := ht
  · obtain ⟨d, ds, rfl⟩ := List.exists_cons_of_ne_nil hdigits.1
    have hd := hdigits.2 d List.mem_cons_self
    rw [isDigit, decide_eq_true_eq] at hd
    exact ⟨d, ds, rfl, .inl hd⟩
  · exact ⟨code '-', digits, rfl, .inr rfl⟩

/-- A text that begins with an integer and is a number is read. -/
lemma reads_number {integer t : CodeText} {v : JsonValue} (hinteger : IsInteger integer)
    (hnumber : ∀ s, NumberEnds s → number F L (integer ++ t ++ s) = .ok (v, s)) (depth : ℕ) :
    Reads F L depth (integer ++ t) (.ok v) := by
  obtain ⟨c, rest, rfl, hc⟩ := head_integer hinteger
  refine ⟨⟨c, rest ++ t, rfl, ?_, ?_, ?_⟩, fun n hn s hs => ?_⟩
  · rw [isBlank, decide_eq_false_iff_not]
    simp only [List.mem_cons, List.not_mem_nil, or_false]
    omega
  · rintro rfl
    revert hc
    decide
  · rintro rfl
    revert hc
    decide
  · obtain ⟨n, rfl⟩ : ∃ m, n = m + 1 := ⟨n - 1, by simp at hn; omega⟩
    have hword : word (c :: (rest ++ t ++ s)) = none := by
      have h := word_integer hinteger (t ++ s)
      rwa [← List.append_assoc, List.cons_append, List.cons_append] at h
    have hother : c ≠ code '"' ∧ c ≠ code '[' ∧ c ≠ code '{' := by
      refine ⟨?_, ?_, ?_⟩ <;>
      · rintro rfl
        revert hc
        decide
    have hn' := hnumber s hs
    rw [List.cons_append, List.cons_append] at hn' ⊢
    rw [value.eq_def]
    simp only [hother.1, hother.2.1, hother.2.2, if_false, scalar, hword, hn']
    rfl

/-- The digits that are written are read. -/
def Limits.ReadsWritten (L : Limits) : Prop := ∀ k ≤ maxDigits, L.digits k = true

/-- What is read without limits of one's own is read where they allow it. -/
lemma number_of_number (hL : L.ReadsWritten) {s : CodeText} {r : JsonValue × CodeText}
    (h : JsonText.number F s = some r) : number F L s = .ok r := by
  rw [JsonText.number] at h
  rw [number]
  cases hmatch : matchInteger s with
  | none => simp [hmatch] at h
  | some found =>
    obtain ⟨integer, s⟩ := found
    simp only [hmatch] at h ⊢
    by_cases hempty : (matchFraction s).1 = [] ∧ (matchExponent (matchFraction s).2).1 = []
    · rw [if_pos hempty] at h ⊢
      obtain ⟨n, hread, rfl⟩ := Option.map_eq_some_iff.mp h
      rw [readInt.eq_def] at hread
      split_ifs at hread with hlength
      rw [if_pos (hL _ hlength), Option.some.inj hread]
    · rw [if_neg hempty] at h ⊢
      rw [Option.some.inj h]

lemma reads_int (hL : L.ReadsWritten) {n : ℤ} (hn : PyJson.fewDigits n = true) (depth : ℕ) :
    Reads F L depth (intText n) (.ok (.int n)) := by
  have h := reads_number (F := F) (L := L) (t := []) (v := .int n) (isInteger_intText n)
    (fun s hs => number_of_number hL (by
      rw [List.append_nil]
      exact number_intText (of_decide_eq_true hn) hs)) depth
  rwa [List.append_nil] at h

lemma reads_float (hL : L.ReadsWritten) (x : PyFloat F) (depth : ℕ) :
    Reads F L depth (PyJson.floatRepr x) (.ok (.float x.value)) := by
  rcases x with ⟨q, hq⟩ | ⟨_ | _⟩ | _
  · obtain ⟨integer, fraction, exponent, hinteger, -, -, -, hrepr⟩ := F.isFloatText q hq
    have h := reads_number (F := F) (L := L) (t := fraction ++ exponent)
      (v := .float (.finite q)) hinteger (fun s hs => number_of_number hL (by
        rw [← List.append_assoc, ← hrepr]
        exact number_repr hq hs)) depth
    rwa [← List.append_assoc, ← hrepr] at h
  · exact reads_word (lit "Infinity", .float (.infinite false)) (by simp [words]) depth
  · exact reads_word (lit "-Infinity", .float (.infinite true)) (by simp [words]) depth
  · exact reads_word (lit "NaN", .float .nan) (by simp [words]) depth

/-- A container that may not be entered. -/
lemma reads_tooDeep (opening : Char) (rest : CodeText) (h : opening = '[' ∨ opening = '{') :
    Reads F L 0 (code opening :: rest) (.error .recursion) := by
  rcases h with rfl | rfl
  all_goals
    refine ⟨⟨_, _, rfl, by decide, by decide, by decide⟩, fun n hn s _ => ?_⟩
    obtain ⟨n, rfl⟩ : ∃ m, n = m + 1 := ⟨n - 1, by simp at hn; omega⟩
    rw [List.cons_append, value.eq_def]
    rfl

/-! ## Everything that is written is read back -/

def keyName (k : PyKey F) : CodeText :=
  match PyJson.keyText k with
  | .ok t => t
  | .error _ => []

/-- The entries in the order in which they are written. -/
def inOrder {β : Type*} (o : DumpOptions) (es : List (PyKey F × β)) : List (PyKey F × β) :=
  if o.sortKeys then PyJson.sorted es else es

/-- An entry with its result. -/
def entryResult (o : DumpOptions) (e : PyKey F × Except ScanError JsonValue) :
    Except ScanError (CodeText × JsonValue) :=
  e.2.map fun v => (readText o (keyName e.1), v)

mutual

/-- What the text of a value is read as, where so many containers may be entered. -/
def reads (o : DumpOptions) : ℕ → PyValue F → Except ScanError JsonValue
  | _, .none => .ok .null
  | _, .bool b => .ok (.bool b)
  | _, .int n => .ok (.int n)
  | _, .float x => .ok (.float x.value)
  | _, .str t => .ok (.str (readText o t.points))
  | 0, .list _ => .error .recursion
  | depth + 1, .list items => ((readsItems o depth items).mapM id).map .list
  | 0, .dict _ => .error .recursion
  | depth + 1, .dict es =>
    ((inOrder o (readsEntries o depth es)).mapM (entryResult o)).map fun entries =>
      .dict (ofEntries entries)
  | _, .other _ str => .ok (.str (readText o str.points))

def readsItems (o : DumpOptions) : ℕ → List (PyValue F) → List (Except ScanError JsonValue)
  | _, [] => []
  | depth, v :: vs => reads o depth v :: readsItems o depth vs

def readsEntries (o : DumpOptions) :
    ℕ → List (PyKey F × PyValue F) → List (PyKey F × Except ScanError JsonValue)
  | _, [] => []
  | depth, (k, v) :: es => (k, reads o depth v) :: readsEntries o depth es

end

lemma map_inOrder {β γ : Type*} (o : DumpOptions) (f : PyKey F → β → γ)
    (es : List (PyKey F × β)) :
    inOrder o (es.map fun e => (e.1, f e.1 e.2)) =
      (inOrder o es).map fun e => (e.1, f e.1 e.2) := by
  rw [inOrder, inOrder]
  split_ifs
  · exact (List.map_insertionSort (fun e e' : PyKey F × β => !PyJson.keyLt e'.1 e.1)
      (fun e e' : PyKey F × γ => !PyJson.keyLt e'.1 e.1) (fun e => (e.1, f e.1 e.2)) es
      fun e _ e' _ => Iff.rfl).symm
  · rfl

lemma mem_inOrder {β : Type*} {o : DumpOptions} {es : List (PyKey F × β)} {e : PyKey F × β} :
    e ∈ inOrder o es ↔ e ∈ es := by
  rw [inOrder]
  split_ifs
  · exact PyJson.mem_sorted
  · exact Iff.rfl

lemma readsEntries_eq (o : DumpOptions) (depth : ℕ) (es : List (PyKey F × PyValue F)) :
    readsEntries o depth es = es.map fun e => (e.1, reads o depth e.2) := by
  induction es with
  | nil => simp [readsEntries]
  | cons e es ih => simp [readsEntries, ih]

lemma entryTexts_eq (o : DumpOptions) (depth : ℕ) (es : List (PyKey F × PyValue F)) :
    PyJson.entryTexts o depth es = es.map fun e => (e.1, PyJson.dumps o depth e.2) := by
  induction es with
  | nil => simp [PyJson.entryTexts]
  | cons e es ih => simp [PyJson.entryTexts, ih]

lemma ordered_eq {β : Type*} {o : DumpOptions} {es es' : List (PyKey F × β)}
    (h : PyJson.ordered o es = .ok es') : es' = inOrder o es := by
  rw [PyJson.ordered] at h
  rw [inOrder]
  split_ifs at h ⊢
  · exact (Except.ok.inj h).symm
  · exact (Except.ok.inj h).symm

lemma keyName_valid {k : PyKey F} {t : CodeText} (h : PyJson.keyText k = .ok t) :
    keyName k = t ∧ ∀ c ∈ t, c < 0x110000 := by
  refine ⟨by rw [keyName, h], ?_⟩
  have hascii : IsAsciiText t → ∀ c ∈ t, c < 0x110000 := by
    intro ht c hc
    have hprintable := ht c hc
    rw [isPrintable, decide_eq_true_eq] at hprintable
    omega
  cases k with
  | str t => cases h; exact t.valid
  | none => cases h; exact hascii (isAsciiText_of_all rfl)
  | bool b => cases h; exact hascii (PyJson.isAsciiText_word b)
  | float x => cases h; exact hascii (PyJson.isAsciiText_floatRepr x)
  | int n => exact hascii (PyJson.intRepr_eq_ok h)
  | other => cases h

/-- The texts of the items, with what they are read as. -/
lemma forall₂_items {o : DumpOptions} {d depth : ℕ} {vs : List (PyValue F)} {ts : List CodeText}
    (hdumps : (PyJson.itemTexts o d vs).mapM id = .ok ts)
    (hreads : ∀ v ∈ vs, ∀ {t}, PyJson.dumps o d v = .ok t → Reads F L depth t (reads o depth v)) :
    List.Forall₂ (Reads F L depth) ts (readsItems o depth vs) := by
  rw [PyJson.mapM_eq_ok_iff] at hdumps
  induction vs generalizing ts with
  | nil =>
    rw [PyJson.itemTexts, List.forall₂_nil_left_iff] at hdumps
    rw [hdumps, readsItems]
    exact .nil
  | cons v vs ih =>
    rw [PyJson.itemTexts] at hdumps
    obtain ⟨t, ts, ht, hts, rfl⟩ := List.forall₂_cons_left_iff.mp hdumps
    obtain ⟨hv, hvs⟩ := List.forall_mem_cons.mp hreads
    rw [readsItems]
    exact .cons (hv ht) (ih hts hvs)

/-- An entry that is written. -/
def written (o : DumpOptions) (d depth : ℕ) (e : PyKey F × PyValue F) : Written where
  key := keyName e.1
  text := (PyJson.dumps o d e.2).toOption.getD []
  result := reads o depth e.2

lemma entries_written {o : DumpOptions} {d depth : ℕ} {es : List (PyKey F × PyValue F)}
    {ts : List CodeText}
    (hdumps : (es.map fun e => (e.1, PyJson.dumps o d e.2)).mapM (PyJson.entryText o) = .ok ts)
    (hreads : ∀ e ∈ es, ∀ {t}, PyJson.dumps o d e.2 = .ok t →
      Reads F L depth t (reads o depth e.2)) :
    ts = (es.map (written o d depth)).map (Written.entry o) ∧
      ∀ e ∈ es.map (written o d depth), e.Reads F L depth := by
  rw [PyJson.mapM_eq_ok_iff] at hdumps
  induction es generalizing ts with
  | nil =>
    rw [List.map_nil, List.forall₂_nil_left_iff] at hdumps
    exact ⟨hdumps, fun e he => absurd he List.not_mem_nil⟩
  | cons e es ih =>
    rw [List.map_cons] at hdumps
    obtain ⟨t, ts, ht, hts, rfl⟩ := List.forall₂_cons_left_iff.mp hdumps
    obtain ⟨he, hes⟩ := List.forall_mem_cons.mp hreads
    obtain ⟨hrest, hall⟩ := ih hts hes
    obtain ⟨key, text, hkey, htext, rfl⟩ := PyJson.entryText_eq_ok.mp ht
    obtain ⟨hname, hvalid⟩ := keyName_valid hkey
    have hwritten : (written o d depth e).text = text := by
      rw [written, htext]
      rfl
    refine ⟨?_, List.forall_mem_cons.mpr ⟨⟨?_, ?_⟩, hall⟩⟩
    · rw [hrest, List.map_cons, List.map_cons, Written.entry, hwritten, written, hname]
    · rw [written, hname]
      exact hvalid
    · rw [hwritten]
      exact he htext

mutual

theorem reads_dumps {o : DumpOptions} (ho : Separated o) (hL : L.ReadsWritten) :
    ∀ (v : PyValue F) {d : ℕ} (depth : ℕ) {t : CodeText},
      PyJson.dumps o d v = .ok t → Reads F L depth t (reads o depth v)
  | .none, d, depth, t, h => by
    rw [PyJson.dumps] at h
    cases h
    rw [reads]
    exact reads_word (lit "null", .null) (by simp [words]) depth
  | .bool true, d, depth, t, h => by
    rw [PyJson.dumps] at h
    cases h
    rw [reads]
    exact reads_word (lit "true", .bool true) (by simp [words]) depth
  | .bool false, d, depth, t, h => by
    rw [PyJson.dumps] at h
    cases h
    rw [reads]
    exact reads_word (lit "false", .bool false) (by simp [words]) depth
  | .int n, d, depth, t, h => by
    rw [PyJson.dumps, PyJson.intRepr] at h
    split_ifs at h with hn
    cases h
    rw [reads]
    exact reads_int hL hn depth
  | .float x, d, depth, t, h => by
    rw [PyJson.dumps] at h
    cases h
    rw [reads]
    exact reads_float hL x depth
  | .str s, d, depth, t, h => by
    rw [PyJson.dumps] at h
    cases h
    rw [reads]
    exact reads_string s.valid o depth
  | .other _ s, 0, depth, t, h => by
    rw [PyJson.dumps] at h
    cases h
  | .other _ s, d + 1, depth, t, h => by
    rw [PyJson.dumps] at h
    cases h
    rw [reads]
    exact reads_string s.valid o depth
  | .list items, 0, depth, t, h => by
    rw [PyJson.dumps] at h
    cases h
  | .list items, d + 1, 0, t, h => by
    obtain ⟨ts, -, rfl⟩ := PyJson.dumps_list.mp h
    rw [reads]
    exact reads_tooDeep '[' _ (.inl rfl)
  | .list items, d + 1, depth + 1, t, h => by
    obtain ⟨ts, hts, rfl⟩ := PyJson.dumps_list.mp h
    rw [reads]
    exact reads_list ho (forall₂_items hts fun v hv _ => reads_dumps_items ho hL items v hv depth)
  | .dict es, 0, depth, t, h => by
    rw [PyJson.dumps] at h
    cases h
  | .dict es, d + 1, 0, t, h => by
    obtain ⟨es', ts, -, -, rfl⟩ := PyJson.dumps_dict.mp h
    rw [reads]
    exact reads_tooDeep '{' _ (.inr rfl)
  | .dict es, d + 1, depth + 1, t, h => by
    obtain ⟨es', ts, hes', hts, rfl⟩ := PyJson.dumps_dict.mp h
    rw [ordered_eq hes', entryTexts_eq, map_inOrder o fun _ v => PyJson.dumps o d v] at hts
    have hall : ∀ e ∈ inOrder o es, ∀ {t}, PyJson.dumps o d e.2 = .ok t →
        Reads F L depth t (reads o depth e.2) :=
      fun e he _ => reads_dumps_entries ho hL es e (mem_inOrder.mp he) depth
    obtain ⟨rfl, hreads⟩ := entries_written hts hall
    have hresult := reads_dict ho hreads
    rw [reads, readsEntries_eq, map_inOrder o (fun _ v => reads o depth v)]
    rw [List.mapM_map] at hresult ⊢
    exact hresult

theorem reads_dumps_items {o : DumpOptions} (ho : Separated o) (hL : L.ReadsWritten) :
    ∀ (vs : List (PyValue F)), ∀ v ∈ vs, ∀ {d : ℕ} (depth : ℕ) {t : CodeText},
      PyJson.dumps o d v = .ok t → Reads F L depth t (reads o depth v)
  | [] => fun _ hv => absurd hv List.not_mem_nil
  | v :: vs => List.forall_mem_cons.mpr
      ⟨fun depth _ h => reads_dumps ho hL v depth h, reads_dumps_items ho hL vs⟩

theorem reads_dumps_entries {o : DumpOptions} (ho : Separated o) (hL : L.ReadsWritten) :
    ∀ (es : List (PyKey F × PyValue F)), ∀ e ∈ es, ∀ {d : ℕ} (depth : ℕ) {t : CodeText},
      PyJson.dumps o d e.2 = .ok t → Reads F L depth t (reads o depth e.2)
  | [] => fun _ he => absurd he List.not_mem_nil
  | (_, v) :: es => List.forall_mem_cons.mpr
      ⟨fun depth _ h => reads_dumps ho hL v depth h, reads_dumps_entries ho hL es⟩

end

/-- **What is written is read back.** -/
theorem loads_dumps {o : DumpOptions} (ho : Separated o) (hL : L.ReadsWritten) {d : ℕ}
    {v : PyValue F} {t : CodeText} (h : PyJson.dumps o d v = .ok t) :
    loads F L t = reads o L.depth v := by
  have hreads := reads_dumps (L := L) ho hL v L.depth h
  have hskip := hreads.skip []
  have hvalue := hreads.value (t.length + 1) (Nat.le_succ _) [] fun c hc => by cases hc
  rw [List.append_nil] at hskip hvalue
  rw [loads, hskip, hvalue]
  cases reads o L.depth v with
  | error e => rfl
  | ok v => rfl

end JsonScan

end Habeny.Lib
