import Habeny.Lib.Json
import Habeny.Lib.JsonValue
import Mathlib.Data.List.Chain

/-!
# Texts of JSON values

How `json.dumps` writes a value, with its own separators and with escapes for everything that is
no printable ASCII, and how `json.loads` reads a text.  The text of a float, and the float of a
text, are a parameter with what is known of them.

A code point beyond the first 65536 is escaped as a pair of surrogates, and reading joins such a
pair.  So a text of code points that has a high surrogate just before a low one is not read back;
no JSON text stands for it.  Every other value is (`loads_text`).
-/

namespace Habeny.Lib.JsonText

open CodeText

/-- The code point of a character. -/
abbrev code (c : Char) : ℕ := c.toNat

def isDigit (c : ℕ) : Bool := decide (code '0' ≤ c ∧ c ≤ code '9')

/-- The blanks of JSON. -/
def isBlank (c : ℕ) : Bool := decide (c ∈ [32, 9, 10, 13])

def skip (s : CodeText) : CodeText := s.dropWhile isBlank

/-! ## Strings -/

def hexDigit (n : ℕ) : ℕ := if n < 10 then code '0' + n else code 'a' + (n - 10)

def hexValue (c : ℕ) : Option ℕ :=
  if isDigit c then some (c - code '0')
  else if code 'a' ≤ c ∧ c ≤ code 'f' then some (c - code 'a' + 10)
  else if code 'A' ≤ c ∧ c ≤ code 'F' then some (c - code 'A' + 10)
  else none

def hex4 (n : ℕ) : CodeText :=
  [hexDigit (n / 4096), hexDigit (n / 256 % 16), hexDigit (n / 16 % 16), hexDigit (n % 16)]

def readHex4 (a b c d : ℕ) : Option ℕ :=
  match hexValue a, hexValue b, hexValue c, hexValue d with
  | some a, some b, some c, some d => some (a * 4096 + b * 256 + c * 16 + d)
  | _, _, _, _ => none

def isHigh (c : ℕ) : Bool := decide (0xD800 ≤ c ∧ c < 0xDC00)

def isLow (c : ℕ) : Bool := decide (0xDC00 ≤ c ∧ c < 0xE000)

/-- The letters that stand for a code point after a backslash. -/
def letters : List (ℕ × ℕ) :=
  [(code '"', code '"'), (code '\\', code '\\'), (10, code 'n'), (13, code 'r'), (9, code 't'),
    (12, code 'f'), (8, code 'b')]

def isPrintable (c : ℕ) : Bool := decide (32 ≤ c ∧ c ≤ 126)

def unicodeEscape (c : ℕ) : CodeText := code '\\' :: code 'u' :: hex4 c

/-- How a code point is written in a string. -/
def escape (c : ℕ) : CodeText :=
  match letters.lookup c with
  | some e => [code '\\', e]
  | none =>
    if isPrintable c then [c]
    else if c < 0x10000 then unicodeEscape c
    else
      unicodeEscape (0xD800 + (c - 0x10000) / 0x400) ++
        unicodeEscape (0xDC00 + (c - 0x10000) % 0x400)

def quote (t : CodeText) : CodeText := code '"' :: (t.flatMap escape ++ [code '"'])

/-- A part of a string: a code point, or a number that was escaped. -/
inductive Part where
  | plain (c : ℕ)
  | unicode (n : ℕ)
  deriving DecidableEq

/-- What a letter after a backslash stands for when a string is read. -/
def readLetter (e : ℕ) : Option ℕ :=
  if e = code '/' then some e else (letters.find? fun l => l.2 = e).map Prod.fst

/-- The parts of a string, up to the quote that closes it. -/
def parts : CodeText → Option (List Part × CodeText)
  | [] => none
  | c :: s =>
    if c = code '"' then some ([], s)
    else if c = code '\\' then
      match s with
      | [] => none
      | e :: s =>
        if e = code 'u' then
          match s with
          | h₃ :: h₂ :: h₁ :: h₀ :: s =>
            match readHex4 h₃ h₂ h₁ h₀ with
            | some n => (parts s).map fun r => (.unicode n :: r.1, r.2)
            | none => none
          | _ => none
        else
          match readLetter e with
          | some c => (parts s).map fun r => (.plain c :: r.1, r.2)
          | none => none
    else if c < 32 then none
    else (parts s).map fun r => (.plain c :: r.1, r.2)

/-- A pair of surrogates that were both escaped is joined. -/
def join : List Part → CodeText
  | .unicode h :: .unicode l :: ps =>
    if isHigh h && isLow l then (0x10000 + (h - 0xD800) * 0x400 + (l - 0xDC00)) :: join ps
    else h :: join (.unicode l :: ps)
  | .unicode n :: ps => n :: join ps
  | .plain c :: ps => c :: join ps
  | [] => []

/-- A string, after the quote that opens it. -/
def readString (s : CodeText) : Option (CodeText × CodeText) :=
  (parts s).map fun r => (join r.1, r.2)

/-! ## Numbers -/

/-- Digits at the beginning of a text, of which the first one may be zero only if it is alone. -/
def matchDigits (s : CodeText) : Option (CodeText × CodeText) :=
  match s with
  | [] => none
  | d :: rest =>
    if d = code '0' then some ([d], rest)
    else if isDigit d then some (s.takeWhile isDigit, s.dropWhile isDigit)
    else none

/-- An integer at the beginning of a text. -/
def matchInteger (s : CodeText) : Option (CodeText × CodeText) :=
  match s with
  | [] => none
  | c :: rest =>
    if c = code '-' then (matchDigits rest).map fun r => (c :: r.1, r.2) else matchDigits s

def matchFraction (s : CodeText) : CodeText × CodeText :=
  match s with
  | c :: rest =>
    if c = code '.' ∧ rest.takeWhile isDigit ≠ [] then
      (c :: rest.takeWhile isDigit, rest.dropWhile isDigit)
    else ([], s)
  | [] => ([], s)

def isSign (c : ℕ) : Bool := decide (c = code '+' ∨ c = code '-')

def matchExponent (s : CodeText) : CodeText × CodeText :=
  match s with
  | c :: rest =>
    let sign := (rest.take 1).filter isSign
    let digits := rest.drop sign.length
    if (c = code 'e' ∨ c = code 'E') ∧ digits.takeWhile isDigit ≠ [] then
      (c :: sign ++ digits.takeWhile isDigit, digits.dropWhile isDigit)
    else ([], s)
  | [] => ([], s)

/-- Integers with more digits are neither written nor read. -/
def maxDigits : ℕ := 4300

def intText (n : ℤ) : CodeText := (Json.intText n).map Char.toNat

def readInt (t : CodeText) : Option ℤ :=
  if (t.filter isDigit).length ≤ maxDigits then some (Json.readInt (t.map Char.ofNat)) else none

/-- One digit or more. -/
def IsDigits (t : CodeText) : Prop := t ≠ [] ∧ ∀ c ∈ t, isDigit c = true

/-- The texts of integers: zero, or digits that do not begin with it. -/
def IsInteger (t : CodeText) : Prop :=
  ∃ digits, IsDigits digits ∧ (digits = [code '0'] ∨ digits.head? ≠ some (code '0')) ∧
    (t = digits ∨ t = code '-' :: digits)

def IsFraction (t : CodeText) : Prop := ∃ digits, IsDigits digits ∧ t = code '.' :: digits

def IsExponent (t : CodeText) : Prop :=
  ∃ sign digits, (sign = [] ∨ ∃ c, isSign c = true ∧ sign = [c]) ∧ IsDigits digits ∧
    t = code 'e' :: sign ++ digits

/-- A float is written with a fraction or an exponent, or both. -/
def IsFloatText (t : CodeText) : Prop :=
  ∃ integer fraction exponent, IsInteger integer ∧ (fraction = [] ∨ IsFraction fraction) ∧
    (exponent = [] ∨ IsExponent exponent) ∧ (fraction ≠ [] ∨ exponent ≠ []) ∧
    t = integer ++ fraction ++ exponent

/-- The finite floats, how they are written and how texts are read; a float is read back from its
text. -/
structure FloatText where
  isFloat : ℚ → Prop
  repr : ℚ → CodeText
  read : CodeText → JsonFloat
  isFloatText : ∀ q, isFloat q → IsFloatText (repr q)
  read_repr : ∀ q, isFloat q → read (repr q) = .finite q

variable (F : FloatText)

def floatText : JsonFloat → CodeText
  | .finite q => F.repr q
  | .infinite false => lit "Infinity"
  | .infinite true => lit "-Infinity"
  | .nan => lit "NaN"

/-- A number at the beginning of a text. -/
def number (s : CodeText) : Option (JsonValue × CodeText) :=
  match matchInteger s with
  | none => none
  | some (integer, s) =>
    let (fraction, s) := matchFraction s
    let (exponent, s) := matchExponent s
    if fraction = [] ∧ exponent = [] then (readInt integer).map fun n => (.int n, s)
    else some (.float (F.read (integer ++ fraction ++ exponent)), s)

/-! ## Values -/

mutual

/-- The text of a value. -/
def text : JsonValue → CodeText
  | .null => lit "null"
  | .bool true => lit "true"
  | .bool false => lit "false"
  | .int n => intText n
  | .float x => floatText F x
  | .str t => quote t
  | .list [] => lit "[]"
  | .list (v :: vs) => code '[' :: (text v ++ itemsText vs)
  | .dict [] => lit "{}"
  | .dict ((k, v) :: es) => code '{' :: (quote k ++ lit ": " ++ text v ++ entriesText es)

/-- What follows the first item of a list. -/
def itemsText : List JsonValue → CodeText
  | [] => [code ']']
  | v :: vs => lit ", " ++ text v ++ itemsText vs

/-- What follows the first entry of an object. -/
def entriesText : List (CodeText × JsonValue) → CodeText
  | [] => [code '}']
  | (k, v) :: es => lit ", " ++ quote k ++ lit ": " ++ text v ++ entriesText es

end

/-- The values that are written as words. -/
def words : List (CodeText × JsonValue) :=
  [(lit "null", .null), (lit "true", .bool true), (lit "false", .bool false),
    (lit "NaN", .float .nan), (lit "Infinity", .float (.infinite false)),
    (lit "-Infinity", .float (.infinite true))]

def word (s : CodeText) : Option (JsonValue × CodeText) :=
  words.findSome? fun w => if w.1.isPrefixOf s then some (w.2, s.drop w.1.length) else none

/-- The object of some entries, where a later one replaces an earlier one of the same key. -/
def ofEntries (es : JsonEntries) : JsonEntries := es.foldl (fun d e => d.set e.1 e.2) []

mutual

/-- A value at the beginning of a text.  Every call is for a text that is shorter, so it is enough
if the number of calls is bounded by the length of the text. -/
def value : ℕ → CodeText → Option (JsonValue × CodeText)
  | 0, _ => none
  | _, [] => none
  | n + 1, c :: s =>
    if c = code '"' then (readString s).map fun r => (.str r.1, r.2)
    else if c = code '[' then
      match skip s with
      | [] => none
      | d :: s' =>
        if d = code ']' then some (.list [], s')
        else (items n (d :: s')).map fun r => (.list r.1, r.2)
    else if c = code '{' then
      match skip s with
      | [] => none
      | d :: s' =>
        if d = code '}' then some (.dict [], s')
        else (entries n (d :: s')).map fun r => (.dict (ofEntries r.1), r.2)
    else (word (c :: s)).or (number F (c :: s))

/-- The items of a list, up to the bracket that closes it. -/
def items : ℕ → CodeText → Option (List JsonValue × CodeText)
  | 0, _ => none
  | n + 1, s =>
    match value n s with
    | none => none
    | some (v, s) =>
      match skip s with
      | [] => none
      | c :: s =>
        if c = code ']' then some ([v], s)
        else if c = code ',' then (items n (skip s)).map fun r => (v :: r.1, r.2)
        else none

/-- The entries of an object, up to the brace that closes it. -/
def entries : ℕ → CodeText → Option (JsonEntries × CodeText)
  | 0, _ => none
  | _, [] => none
  | n + 1, q :: s =>
    if q = code '"' then
      match readString s with
      | none => none
      | some (k, s) =>
        match skip s with
        | [] => none
        | c :: s =>
          if c = code ':' then
            match value n (skip s) with
            | none => none
            | some (v, s) =>
              match skip s with
              | [] => none
              | c :: s =>
                if c = code '}' then some ([(k, v)], s)
                else if c = code ',' then
                  (entries n (skip s)).map fun r => ((k, v) :: r.1, r.2)
                else none
          else none
    else none

end

/-- `json.loads` of a text -/
def loads (s : CodeText) : Option JsonValue :=
  match value F (s.length + 1) (skip s) with
  | some (v, rest) => if skip rest = [] then some v else none
  | none => none

/-! ## What can be read back -/

/-- A text that a JSON string stands for: no high surrogate is just before a low one. -/
def IsJoined (t : CodeText) : Prop :=
  t.IsChain (fun c d => ¬(isHigh c = true ∧ isLow d = true)) ∧ ∀ c ∈ t, c < 0x110000

mutual

/-- A value that a JSON text stands for, with integers that are written. -/
def IsPayload : JsonValue → Prop
  | .null | .bool _ | .float .nan | .float (.infinite _) => True
  | .int n => ((intText n).filter isDigit).length ≤ maxDigits
  | .float (.finite q) => F.isFloat q
  | .str t => IsJoined t
  | .list vs => ArePayloads vs
  | .dict es => (es.map Prod.fst).Nodup ∧ EntriesArePayloads es

def ArePayloads : List JsonValue → Prop
  | [] => True
  | v :: vs => IsPayload v ∧ ArePayloads vs

def EntriesArePayloads : List (CodeText × JsonValue) → Prop
  | [] => True
  | (k, v) :: es => IsJoined k ∧ IsPayload v ∧ EntriesArePayloads es

end

/-! ## Strings are read back -/

section Strings

variable {c : ℕ} {t s : CodeText}

lemma hexValue_hexDigit : ∀ n < 16, hexValue (hexDigit n) = some n := by decide

lemma readHex4_hex4 {n : ℕ} (h : n < 0x10000) :
    readHex4 (hexDigit (n / 4096)) (hexDigit (n / 256 % 16)) (hexDigit (n / 16 % 16))
      (hexDigit (n % 16)) = some n := by
  rw [readHex4, hexValue_hexDigit _ (by omega), hexValue_hexDigit _ (by omega),
    hexValue_hexDigit _ (by omega), hexValue_hexDigit _ (by omega)]
  simp only [Option.some.injEq]
  omega

lemma parts_unicodeEscape {n : ℕ} (h : n < 0x10000) (s : CodeText) :
    parts (unicodeEscape n ++ s) = (parts s).map fun r => (.unicode n :: r.1, r.2) := by
  simp only [unicodeEscape, hex4, List.cons_append, List.nil_append]
  rw [parts]
  simp only [readHex4_hex4 h]
  rfl

/-- The parts that a code point is written as. -/
def partsOf (c : ℕ) : List Part :=
  if (letters.lookup c).isSome ∨ isPrintable c then [.plain c]
  else if c < 0x10000 then [.unicode c]
  else [.unicode (0xD800 + (c - 0x10000) / 0x400), .unicode (0xDC00 + (c - 0x10000) % 0x400)]

lemma letters_read : ∀ l ∈ letters, readLetter l.2 = some l.1 ∧ l.2 ≠ code 'u' := by decide

lemma parts_letter {e : ℕ} (h : letters.lookup c = some e) (s : CodeText) :
    parts (code '\\' :: e :: s) = (parts s).map fun r => (.plain c :: r.1, r.2) := by
  obtain ⟨before, after, hletters, -⟩ := List.lookup_eq_some_iff.mp h
  have hmem : (c, e) ∈ letters := by simp [hletters]
  obtain ⟨hread, hu⟩ := letters_read (c, e) hmem
  simp only at hread hu
  conv_lhs => rw [parts.eq_def]
  simp only [hu, hread, if_false]
  rfl

lemma parts_printable (hletter : letters.lookup c = none) (hprintable : isPrintable c = true)
    (s : CodeText) : parts (c :: s) = (parts s).map fun r => (.plain c :: r.1, r.2) := by
  have hquote : c ≠ code '"' := by
    rintro rfl
    exact absurd hletter (by decide)
  have hbackslash : c ≠ code '\\' := by
    rintro rfl
    exact absurd hletter (by decide)
  have hlow : ¬c < 32 := by
    rw [isPrintable, decide_eq_true_eq] at hprintable
    omega
  conv_lhs => rw [parts.eq_def]
  simp only [hquote, hbackslash, hlow, if_false]

/-- Reading what a code point is written as. -/
lemma parts_escape (hc : c < 0x110000) (s : CodeText) :
    parts (escape c ++ s) = (parts s).map fun r => (partsOf c ++ r.1, r.2) := by
  rw [escape, partsOf]
  cases hletter : letters.lookup c with
  | some e =>
    simp only [Option.isSome_some, true_or, if_true]
    exact parts_letter hletter s
  | none =>
    simp only [Option.isSome_none, Bool.false_eq_true, false_or]
    split_ifs with hprintable hshort
    · exact parts_printable hletter hprintable s
    · exact parts_unicodeEscape hshort s
    · rw [List.append_assoc, parts_unicodeEscape (by omega), parts_unicodeEscape (by omega),
        Option.map_map]
      rfl

lemma parts_escaped (ht : ∀ c ∈ t, c < 0x110000) (s : CodeText) :
    parts (t.flatMap escape ++ code '"' :: s) = some (t.flatMap partsOf, s) := by
  induction t with
  | nil =>
    rw [List.flatMap_nil, List.nil_append, parts.eq_def]
    rfl
  | cons c t ih =>
    rw [List.flatMap_cons, List.append_assoc, parts_escape (ht c List.mem_cons_self),
      ih fun d hd => ht d (List.mem_cons_of_mem _ hd)]
    rfl

lemma partsOf_ne_nil (c : ℕ) : partsOf c ≠ [] := by
  rw [partsOf]
  split_ifs <;> simp

/-- Where the parts of a text begin with an escaped low surrogate, the text does too. -/
lemma head_partsOf {n : ℕ} (hc : c < 0x110000) (hn : isLow n = true)
    (h : (partsOf c).head? = some (.unicode n)) : c = n := by
  rw [isLow, decide_eq_true_eq] at hn
  rw [partsOf] at h
  split_ifs at h
  · cases h
  · cases h
    rfl
  · cases h
    omega

lemma join_plain (c : ℕ) (ps : List Part) : join (.plain c :: ps) = c :: join ps := rfl

lemma join_unicode_unicode (h l : ℕ) (ps : List Part) :
    join (.unicode h :: .unicode l :: ps) =
      if isHigh h && isLow l then (0x10000 + (h - 0xD800) * 0x400 + (l - 0xDC00)) :: join ps
      else h :: join (.unicode l :: ps) := rfl

lemma join_unicode {n : ℕ} {ps : List Part}
    (h : ∀ l, ps.head? = some (.unicode l) → ¬(isHigh n = true ∧ isLow l = true)) :
    join (.unicode n :: ps) = n :: join ps := by
  cases ps with
  | nil => rfl
  | cons p ps =>
    cases p with
    | plain c => rfl
    | unicode l =>
      have hpair : (isHigh n && isLow l) = false := by
        have hnot := h l rfl
        cases hhigh : isHigh n
        · rfl
        · cases hlow : isLow l
          · rfl
          · exact absurd ⟨hhigh, hlow⟩ hnot
      rw [join_unicode_unicode, hpair]
      rfl

lemma join_pair (hshort : ¬c < 0x10000) (hc : c < 0x110000) (ps : List Part) :
    join (.unicode (0xD800 + (c - 0x10000) / 0x400) ::
      .unicode (0xDC00 + (c - 0x10000) % 0x400) :: ps) = c :: join ps := by
  have hhigh : isHigh (0xD800 + (c - 0x10000) / 0x400) = true := by
    rw [isHigh, decide_eq_true_eq]
    omega
  have hlow : isLow (0xDC00 + (c - 0x10000) % 0x400) = true := by
    rw [isLow, decide_eq_true_eq]
    omega
  rw [join_unicode_unicode, hhigh, hlow]
  simp only [Bool.and_self, if_true, List.cons.injEq, and_true]
  omega

/-- **A text that a JSON string stands for is read back.** -/
lemma join_partsOf (ht : IsJoined t) : join (t.flatMap partsOf) = t := by
  obtain ⟨hchain, hbound⟩ := ht
  induction t with
  | nil => rfl
  | cons c t ih =>
    rw [List.isChain_cons] at hchain
    have hrest := ih hchain.2 fun d hd => hbound d (List.mem_cons_of_mem _ hd)
    have hc := hbound c List.mem_cons_self
    rw [List.flatMap_cons, partsOf]
    split_ifs with hplain hshort
    · rw [List.singleton_append, join_plain, hrest]
    · rw [List.singleton_append, join_unicode, hrest]
      rintro l hl ⟨hhigh, hlow⟩
      cases t with
      | nil => cases hl
      | cons d t =>
        rw [List.flatMap_cons, List.head?_append_of_ne_nil _ (partsOf_ne_nil d)] at hl
        have hd := head_partsOf (hbound d (by simp)) hlow hl
        exact hchain.1 d rfl ⟨hhigh, hd ▸ hlow⟩
    · rw [List.cons_append, List.singleton_append, join_pair hshort hc, hrest]

lemma readString_escaped (ht : IsJoined t) (s : CodeText) :
    readString (t.flatMap escape ++ code '"' :: s) = some (t, s) := by
  rw [readString, parts_escaped ht.2, Option.map_some, join_partsOf ht]

end Strings

/-! ## Numbers are read back -/

section Numbers

variable {F} {t s : CodeText}

/-- A number ends here. -/
def NumberEnds (s : CodeText) : Prop :=
  ∀ c ∈ s.head?, isDigit c = false ∧ c ≠ code '.' ∧ c ≠ code 'e' ∧ c ≠ code 'E'

def NoDigit (s : CodeText) : Prop := ∀ c ∈ s.head?, isDigit c = false

lemma NumberEnds.noDigit (h : NumberEnds s) : NoDigit s := fun c hc => (h c hc).1

lemma span_digits (ht : IsDigits t) (hs : NoDigit s) :
    (t ++ s).takeWhile isDigit = t ∧ (t ++ s).dropWhile isDigit = s := by
  rw [List.takeWhile_append_of_pos ht.2, List.dropWhile_append_of_pos ht.2]
  cases s with
  | nil => simp
  | cons c s => simp [hs c rfl]

lemma matchDigits_append (ht : IsDigits t) (hzero : t = [code '0'] ∨ t.head? ≠ some (code '0'))
    (hs : NoDigit s) : matchDigits (t ++ s) = some (t, s) := by
  rcases hzero with rfl | hhead
  · rfl
  · obtain ⟨htake, hdrop⟩ := span_digits ht hs
    obtain ⟨d, digits, rfl⟩ := List.exists_cons_of_ne_nil ht.1
    have hd : d ≠ code '0' := fun heq => hhead (by rw [heq]; rfl)
    rw [List.cons_append] at htake hdrop ⊢
    rw [matchDigits, if_neg hd, if_pos (ht.2 d List.mem_cons_self), htake, hdrop]

lemma matchInteger_append (ht : IsInteger t) (hs : NoDigit s) :
    matchInteger (t ++ s) = some (t, s) := by
  obtain ⟨digits, hdigits, hzero, rfl | rfl⟩ := ht
  · have hmatch := matchDigits_append hdigits hzero hs
    obtain ⟨d, ds, rfl⟩ := List.exists_cons_of_ne_nil hdigits.1
    have hd : d ≠ code '-' := by
      rintro rfl
      exact absurd (hdigits.2 _ List.mem_cons_self) (by decide)
    rw [List.cons_append] at hmatch ⊢
    rw [matchInteger, if_neg hd, hmatch]
  · rw [List.cons_append, matchInteger, if_pos rfl, matchDigits_append hdigits hzero hs]
    rfl

lemma matchFraction_append (ht : t = [] ∨ IsFraction t) (hs : NoDigit s)
    (hdot : s.head? ≠ some (code '.')) : matchFraction (t ++ s) = (t, s) := by
  rcases ht with rfl | ⟨digits, hdigits, rfl⟩
  · cases s with
    | nil => rfl
    | cons c s =>
      have hc : c ≠ code '.' := fun heq => hdot (by rw [heq]; rfl)
      simp [matchFraction, hc]
  · obtain ⟨htake, hdrop⟩ := span_digits hdigits hs
    rw [List.cons_append, matchFraction, if_pos ⟨rfl, by rw [htake]; exact hdigits.1⟩, htake, hdrop]

lemma isSign_of_isDigit {c : ℕ} (h : isDigit c = true) : isSign c = false := by
  rw [isDigit, decide_eq_true_eq] at h
  rw [isSign, decide_eq_false_iff_not]
  rintro (rfl | rfl) <;> exact absurd h (by decide)

lemma matchExponent_append (ht : t = [] ∨ IsExponent t) (hs : NoDigit s)
    (he : ∀ c ∈ s.head?, c ≠ code 'e' ∧ c ≠ code 'E') : matchExponent (t ++ s) = (t, s) := by
  rcases ht with rfl | ⟨sign, digits, hsign, hdigits, rfl⟩
  · cases s with
    | nil => rfl
    | cons c s => simp [matchExponent, he c rfl]
  · obtain ⟨htake, hdrop⟩ := span_digits hdigits hs
    have hsplit : ((sign ++ (digits ++ s)).take 1).filter isSign = sign := by
      rcases hsign with rfl | ⟨c, hc, rfl⟩
      · obtain ⟨d, ds, rfl⟩ := List.exists_cons_of_ne_nil hdigits.1
        simp [isSign_of_isDigit (hdigits.2 d List.mem_cons_self)]
      · simp [hc]
    have hrest : (sign ++ (digits ++ s)).drop sign.length = digits ++ s := List.drop_left
    simp only [List.cons_append, List.append_assoc, matchExponent, hsplit, hrest, htake, hdrop]
    rw [if_pos ⟨.inl trivial, hdigits.1⟩]

lemma isDigit_toNat {c : Char} (h : c.isDigit = true) : isDigit c.toNat = true := by
  rw [Char.isDigit, Bool.and_eq_true, decide_eq_true_eq, decide_eq_true_eq] at h
  rw [isDigit, decide_eq_true_eq]
  exact h

lemma digitChar_ne_zero : ∀ n < 10, 0 < n → Nat.digitChar n ≠ '0' := by decide

lemma head_toDigits {n : ℕ} (hn : 0 < n) : (Nat.toDigits 10 n).head? ≠ some '0' := by
  induction n using Nat.strong_induction_on with
  | _ n ih =>
    by_cases hsmall : n < 10
    · rw [Nat.toDigits_of_lt_base hsmall]
      exact fun h => digitChar_ne_zero n hsmall hn (Option.some.inj h)
    · rw [Nat.toDigits_of_base_le (by decide) (by omega),
        List.head?_append_of_ne_nil _ Nat.toDigits_ne_nil]
      exact ih (n / 10) (by omega) (by omega)

/-- The code points of a decimal text. -/
def natText (n : ℕ) : CodeText := (Nat.toDigits 10 n).map Char.toNat

lemma isDigits_natText (n : ℕ) : IsDigits (natText n) := by
  refine ⟨fun h => Nat.toDigits_ne_nil (List.map_eq_nil_iff.mp h), fun c hc => ?_⟩
  obtain ⟨d, hd, rfl⟩ := List.mem_map.mp hc
  exact isDigit_toNat (Json.isDigit_of_mem_toDigits hd)

lemma natText_zero_or (n : ℕ) :
    natText n = [code '0'] ∨ (natText n).head? ≠ some (code '0') := by
  rcases Nat.eq_zero_or_pos n with rfl | hn
  · exact .inl rfl
  · refine .inr fun h => ?_
    rw [natText, List.head?_map] at h
    obtain ⟨d, hd, heq⟩ := Option.map_eq_some_iff.mp h
    exact head_toDigits hn (hd.trans (congrArg some (Char.toNat_inj.mp heq)))

lemma isInteger_intText (n : ℤ) : IsInteger (intText n) := by
  cases n with
  | ofNat n => exact ⟨natText n, isDigits_natText n, natText_zero_or n, .inl rfl⟩
  | negSucc n => exact ⟨natText (n + 1), isDigits_natText _, natText_zero_or _, .inr rfl⟩

lemma readInt_intText {n : ℤ} (h : ((intText n).filter isDigit).length ≤ maxDigits) :
    readInt (intText n) = some n := by
  have hback : (intText n).map Char.ofNat = Json.intText n := by
    rw [intText, List.map_map]
    exact List.map_id'' (fun c => Char.ofNat_toNat c) _
  rw [readInt, if_pos h, hback, Json.readInt_intText]

lemma number_intText {n : ℤ} (h : ((intText n).filter isDigit).length ≤ maxDigits)
    (hs : NumberEnds s) : number F (intText n ++ s) = some (.int n, s) := by
  have hfraction : matchFraction ([] ++ s) = ([], s) :=
    matchFraction_append (.inl rfl) hs.noDigit fun hdot => (hs _ hdot).2.1 rfl
  have hexponent : matchExponent ([] ++ s) = ([], s) :=
    matchExponent_append (.inl rfl) hs.noDigit fun c hc => (hs c hc).2.2
  rw [List.nil_append] at hfraction hexponent
  rw [number, matchInteger_append (isInteger_intText n) hs.noDigit]
  simp only [hfraction, hexponent, and_self, if_true, readInt_intText h]
  rfl

/-- A fraction or an exponent does not go on with an integer or with a fraction before it. -/
lemma number_repr {q : ℚ} (hq : F.isFloat q) (hs : NumberEnds s) :
    number F (F.repr q ++ s) = some (.float (.finite q), s) := by
  obtain ⟨integer, fraction, exponent, hinteger, hfraction, hexponent, hany, hrepr⟩ :=
    F.isFloatText q hq
  have hafter : NoDigit (exponent ++ s) ∧ (exponent ++ s).head? ≠ some (code '.') := by
    rcases hexponent with rfl | ⟨sign, digits, -, -, rfl⟩
    · exact ⟨hs.noDigit, fun hdot => (hs _ hdot).2.1 rfl⟩
    · exact ⟨fun c hc => by cases hc; rfl, fun h => absurd (Option.some.inj h) (by decide)⟩
  have hmiddle : NoDigit (fraction ++ (exponent ++ s)) := by
    rcases hfraction with rfl | ⟨digits, -, rfl⟩
    · exact hafter.1
    · exact fun c hc => by cases hc; rfl
  rw [number, hrepr, List.append_assoc, List.append_assoc, matchInteger_append hinteger hmiddle]
  simp only [matchFraction_append hfraction hafter.1 hafter.2,
    matchExponent_append hexponent hs.noDigit fun c hc => (hs c hc).2.2]
  rw [if_neg (fun h => hany.elim (fun hf => hf h.1) fun he => he h.2), ← hrepr, F.read_repr q hq]

end Numbers

/-! ## Values are read back -/

section Values

variable {F} {t s : CodeText}

lemma word_eq_none (h : ∀ w ∈ words, w.1.isPrefixOf s = false) : word s = none := by
  rw [word, List.findSome?_eq_none_iff]
  intro w hw
  rw [h w hw]
  rfl

/-- A number is not taken for a word. -/
lemma word_integer (ht : IsInteger t) (s : CodeText) : word (t ++ s) = none := by
  refine word_eq_none ?_
  have hwords : ∀ {d : ℕ} (s : CodeText), 48 ≤ d ∧ d ≤ 57 →
      (∀ w ∈ words, w.1.isPrefixOf (d :: s) = false) ∧
        ∀ w ∈ words, w.1.isPrefixOf (code '-' :: d :: s) = false := by
    intro d s hd
    simp only [words, List.forall_mem_cons, List.not_mem_nil, false_imp_iff, implies_true,
      and_true]
    simp [lit, List.isPrefixOf]
    omega
  obtain ⟨digits, hdigits, -, rfl | rfl⟩ := ht
  all_goals
    obtain ⟨d, ds, rfl⟩ := List.exists_cons_of_ne_nil hdigits.1
    have hd := hdigits.2 d List.mem_cons_self
    rw [isDigit, decide_eq_true_eq] at hd
  · exact (hwords (ds ++ s) hd).1
  · exact (hwords (ds ++ s) hd).2

lemma value_cons (n c : ℕ) (s : CodeText) :
    value F (n + 1) (c :: s) =
      if c = code '"' then (readString s).map fun r => (.str r.1, r.2)
      else if c = code '[' then
        match skip s with
        | [] => none
        | d :: s' =>
          if d = code ']' then some (.list [], s')
          else (items F n (d :: s')).map fun r => (.list r.1, r.2)
      else if c = code '{' then
        match skip s with
        | [] => none
        | d :: s' =>
          if d = code '}' then some (.dict [], s')
          else (entries F n (d :: s')).map fun r => (.dict (ofEntries r.1), r.2)
      else (word (c :: s)).or (number F (c :: s)) := rfl

lemma value_string (n : ℕ) (s : CodeText) :
    value F (n + 1) (code '"' :: s) = (readString s).map fun r => (.str r.1, r.2) := by
  rw [value_cons]
  rfl

lemma value_list {n c : ℕ} (s s' : CodeText) (hskip : skip s = c :: s') (hc : c ≠ code ']') :
    value F (n + 1) (code '[' :: s) = (items F n (c :: s')).map fun r => (.list r.1, r.2) := by
  rw [value_cons]
  simp only [hskip, hc]
  rfl

lemma value_dict {n c : ℕ} (s s' : CodeText) (hskip : skip s = c :: s') (hc : c ≠ code '}') :
    value F (n + 1) (code '{' :: s) =
      (entries F n (c :: s')).map fun r => (.dict (ofEntries r.1), r.2) := by
  rw [value_cons]
  simp only [hskip, hc]
  rfl

lemma value_word {n c : ℕ} (s : CodeText) (hstring : c ≠ code '"')
    (hlist : c ≠ code '[') (hdict : c ≠ code '{') :
    value F (n + 1) (c :: s) = (word (c :: s)).or (number F (c :: s)) := by
  rw [value_cons]
  simp only [hstring, hlist, hdict, if_false]

lemma IsInteger.head (ht : IsInteger t) :
    ∃ c rest, t = c :: rest ∧ isBlank c = false ∧ c ≠ code ']' := by
  obtain ⟨digits, hdigits, -, rfl | rfl⟩ := ht
  · obtain ⟨d, ds, rfl⟩ := List.exists_cons_of_ne_nil hdigits.1
    have hd := hdigits.2 d List.mem_cons_self
    refine ⟨d, ds, rfl, ?_, ?_⟩
    · cases hblank : isBlank d with
      | false => rfl
      | true =>
        rw [isBlank, decide_eq_true_eq] at hblank
        simp only [List.mem_cons, List.not_mem_nil, or_false] at hblank
        rcases hblank with rfl | rfl | rfl | rfl <;> exact absurd hd (by decide)
    · rintro rfl
      exact absurd hd (by decide)
  · exact ⟨_, _, rfl, by decide, by decide⟩

/-- The first character of a value is no blank, and does not close a list. -/
lemma text_head (v : JsonValue) (hv : IsPayload F v) :
    ∃ c rest, text F v = c :: rest ∧ isBlank c = false ∧ c ≠ code ']' := by
  match v, hv with
  | .null, _ | .bool true, _ | .bool false, _ | .float .nan, _ | .float (.infinite true), _
  | .float (.infinite false), _ | .list [], _ | .dict [], _ =>
    exact ⟨_, _, rfl, by decide, by decide⟩
  | .int n, _ => exact (isInteger_intText n).head
  | .float (.finite q), hq =>
    obtain ⟨integer, fraction, exponent, hinteger, -, -, -, hrepr⟩ := F.isFloatText q hq
    obtain ⟨c, rest, heq, hc⟩ := hinteger.head
    refine ⟨c, rest ++ (fraction ++ exponent), ?_, hc⟩
    rw [text, floatText, hrepr, heq, List.append_assoc]
    rfl
  | .str t, _ => exact ⟨_, _, by rw [text, quote], by decide, by decide⟩
  | .list (v :: vs), _ => exact ⟨_, _, by rw [text], by decide, by decide⟩
  | .dict ((k, v) :: es), _ => exact ⟨_, _, by rw [text], by decide, by decide⟩

lemma skip_of_head {c : ℕ} (hc : isBlank c = false) (s : CodeText) : skip (c :: s) = c :: s := by
  rw [skip, List.dropWhile_cons_of_neg (by rw [hc]; decide)]

lemma skip_space (s : CodeText) : skip (code ' ' :: s) = skip s := rfl

lemma numberEnds_itemsText (vs : List JsonValue) (s : CodeText) :
    NumberEnds (itemsText F vs ++ s) := by
  cases vs <;> exact fun c hc => by cases hc; decide

lemma numberEnds_entriesText (es : List (CodeText × JsonValue)) (s : CodeText) :
    NumberEnds (entriesText F es ++ s) := by
  rcases es with _ | ⟨⟨k, v⟩, es⟩ <;> exact fun c hc => by cases hc; decide

/-- A number is read back, with the calls that are left. -/
lemma value_integer {n : ℕ} {v : JsonValue} {rest : CodeText} (ht : IsInteger t)
    (h : number F (t ++ rest) = some (v, s)) :
    value F (n + 1) (t ++ rest) = some (v, s) := by
  have hword := word_integer ht rest
  obtain ⟨digits, hdigits, -, rfl | rfl⟩ := ht
  · obtain ⟨d, ds, rfl⟩ := List.exists_cons_of_ne_nil hdigits.1
    have hd := hdigits.2 d List.mem_cons_self
    have hne : ∀ {c}, isDigit c = false → d ≠ c := by
      rintro c hc rfl
      rw [hd] at hc
      cases hc
    rw [List.cons_append] at hword h ⊢
    rw [value_word _ (hne rfl) (hne rfl) (hne rfl), hword, h]
    rfl
  · rw [List.cons_append] at hword h ⊢
    rw [value_word _ (by decide) (by decide) (by decide), hword, h]
    rfl

lemma set_of_notMem {d : JsonEntries} {k : CodeText} (v : JsonValue) (hk : k ∉ d.map Prod.fst) :
    d.set k v = d ++ [(k, v)] := by
  have hlookup : d.lookup k = none := by
    rw [List.lookup_eq_none_iff]
    intro e he
    rw [bne_iff_ne]
    rintro rfl
    exact hk (List.mem_map_of_mem he)
  rw [JsonEntries.set, hlookup]
  rfl

lemma foldl_set {d es : JsonEntries} (h : ((d ++ es).map Prod.fst).Nodup) :
    es.foldl (fun d e => d.set e.1 e.2) d = d ++ es := by
  induction es generalizing d with
  | nil => simp
  | cons e es ih =>
    have hk : e.1 ∉ d.map Prod.fst := by
      rw [List.map_append, List.nodup_append] at h
      exact fun hmem => h.2.2 _ hmem _ List.mem_cons_self rfl
    rw [List.foldl_cons, set_of_notMem e.2 hk, ih (by simpa using h), List.append_assoc]
    rfl

lemma ofEntries_of_nodup {es : JsonEntries} (h : (es.map Prod.fst).Nodup) : ofEntries es = es :=
  foldl_set h

/-- With a number of calls, what is written in as many characters is read back. -/
structure ReadsBack (F : FloatText) (n : ℕ) : Prop where
  value : ∀ v, IsPayload F v → (text F v).length ≤ n → ∀ s, NumberEnds s →
    value F n (text F v ++ s) = some (v, s)
  items : ∀ v vs, IsPayload F v → ArePayloads F vs → (text F v ++ itemsText F vs).length ≤ n →
    ∀ s, items F n (text F v ++ itemsText F vs ++ s) = some (v :: vs, s)
  entries : ∀ k v es, IsJoined k → IsPayload F v → EntriesArePayloads F es →
    (quote k ++ lit ": " ++ text F v ++ entriesText F es).length ≤ n → ∀ s,
    entries F n (quote k ++ lit ": " ++ text F v ++ entriesText F es ++ s) = some ((k, v) :: es, s)

lemma text_length_pos {v : JsonValue} (hv : IsPayload F v) : 0 < (text F v).length := by
  obtain ⟨c, rest, htext, -⟩ := text_head v hv
  rw [htext]
  exact Nat.succ_pos _

lemma skip_text {v : JsonValue} (hv : IsPayload F v) (s : CodeText) :
    skip (text F v ++ s) = text F v ++ s := by
  obtain ⟨c, rest, htext, hc, -⟩ := text_head v hv
  rw [htext, List.cons_append, skip_of_head hc]

lemma readsBack_zero : ReadsBack F 0 where
  value := fun v hv hlength => by
    have := text_length_pos hv
    omega
  items := fun v vs hv _ hlength => by
    have := text_length_pos hv
    rw [List.length_append] at hlength
    omega
  entries := fun k v es _ _ _ hlength => absurd hlength (by simp [quote])

lemma ReadsBack.items_succ {n : ℕ} (h : ReadsBack F n) {v : JsonValue} {vs : List JsonValue}
    (hv : IsPayload F v) (hvs : ArePayloads F vs)
    (hlength : (text F v ++ itemsText F vs).length ≤ n + 1) (s : CodeText) :
    JsonText.items F (n + 1) (text F v ++ itemsText F vs ++ s) = some (v :: vs, s) := by
  rw [List.length_append] at hlength
  rw [JsonText.items, List.append_assoc]
  cases vs with
  | nil =>
    have hclosed : (itemsText F []).length = 1 := by rw [itemsText]; rfl
    have hvalue := h.value v hv (by omega) (itemsText F [] ++ s) (numberEnds_itemsText [] s)
    rw [hvalue, itemsText]
    rfl
  | cons v' vs =>
    have hrest : itemsText F (v' :: vs) ++ s =
        code ',' :: code ' ' :: (text F v' ++ itemsText F vs ++ s) := by
      rw [itemsText]
      rfl
    rw [itemsText, List.length_append, List.length_append] at hlength
    have hsep : (lit ", ").length = 2 := rfl
    have hvalue := h.value v hv (by omega) (itemsText F (v' :: vs) ++ s)
      (numberEnds_itemsText (v' :: vs) s)
    have hitems := h.items v' vs hvs.1 hvs.2 (by rw [List.length_append]; omega) s
    rw [hvalue, hrest]
    simp only [skip_of_head (show isBlank (code ',') = false by decide)]
    rw [if_neg (by decide), if_pos trivial, skip_space, List.append_assoc, skip_text hvs.1,
      ← List.append_assoc, hitems]
    rfl

lemma ReadsBack.entries_succ {n : ℕ} (h : ReadsBack F n) {k : CodeText} {v : JsonValue}
    {es : List (CodeText × JsonValue)} (hk : IsJoined k) (hv : IsPayload F v)
    (hes : EntriesArePayloads F es)
    (hlength : (quote k ++ lit ": " ++ text F v ++ entriesText F es).length ≤ n + 1)
    (s : CodeText) :
    JsonText.entries F (n + 1) (quote k ++ lit ": " ++ text F v ++ entriesText F es ++ s) =
      some ((k, v) :: es, s) := by
  have hquote : quote k ++ lit ": " ++ text F v ++ entriesText F es ++ s =
      code '"' :: (k.flatMap escape ++ code '"' ::
        code ':' :: code ' ' :: (text F v ++ (entriesText F es ++ s))) := by
    rw [show lit ": " = [code ':', code ' '] from rfl]
    simp [quote]
  have hcolon : isBlank (code ':') = false := by decide
  have hsep : (lit ": ").length = 2 ∧ (lit ", ").length = 2 := ⟨rfl, rfl⟩
  have hk2 : 2 ≤ (quote k).length := by simp [quote]
  simp only [List.length_append] at hlength
  have hvalue := h.value v hv (by omega) (entriesText F es ++ s) (numberEnds_entriesText es s)
  rw [hquote, JsonText.entries, if_pos rfl, readString_escaped hk]
  simp only [skip_of_head hcolon, if_true, skip_space, skip_text hv, hvalue]
  cases es with
  | nil =>
    rw [entriesText]
    rfl
  | cons e es =>
    obtain ⟨k', v'⟩ := e
    have hrest : entriesText F ((k', v') :: es) ++ s = code ',' :: code ' ' ::
        (quote k' ++ lit ": " ++ text F v' ++ entriesText F es ++ s) := by
      rw [entriesText, show lit ", " = [code ',', code ' '] from rfl]
      simp
    rw [entriesText] at hlength
    simp only [List.length_append] at hlength
    have hentries := h.entries k' v' es hes.1 hes.2.1 hes.2.2
      (by simp only [List.length_append]; omega) s
    have hhead : skip (quote k' ++ lit ": " ++ text F v' ++ entriesText F es ++ s) =
        quote k' ++ lit ": " ++ text F v' ++ entriesText F es ++ s :=
      skip_of_head (by decide) _
    rw [hrest]
    simp only [skip_of_head (show isBlank (code ',') = false by decide)]
    rw [if_neg (by decide), if_pos trivial, skip_space, hhead, hentries]
    rfl

lemma ReadsBack.value_succ {n : ℕ} (h : ReadsBack F n) {v : JsonValue} (hv : IsPayload F v)
    (hlength : (text F v).length ≤ n + 1) {s : CodeText} (hs : NumberEnds s) :
    JsonText.value F (n + 1) (text F v ++ s) = some (v, s) := by
  match v, hv with
  | .null, _ | .bool true, _ | .bool false, _ | .float .nan, _ | .float (.infinite true), _
  | .float (.infinite false), _ | .list [], _ | .dict [], _ => rfl
  | .int m, hm =>
    rw [text]
    exact value_integer (isInteger_intText m) (number_intText hm hs)
  | .float (.finite q), hq =>
    have hnumber := number_repr hq hs
    obtain ⟨integer, fraction, exponent, hinteger, -, -, -, hrepr⟩ := F.isFloatText q hq
    rw [hrepr, List.append_assoc, List.append_assoc] at hnumber
    rw [text, floatText, hrepr, List.append_assoc, List.append_assoc]
    exact value_integer hinteger hnumber
  | .str t, ht =>
    have htext : text F (.str t) ++ s = code '"' :: (t.flatMap escape ++ code '"' :: s) := by
      simp [text, quote]
    rw [htext, value_string, readString_escaped ht]
    rfl
  | .list (v :: vs), hvs =>
    obtain ⟨c, rest, hhead, hblank, hc⟩ := text_head v hvs.1
    rw [text] at hlength
    have hitems := h.items v vs hvs.1 hvs.2 (Nat.le_of_succ_le_succ hlength) s
    have hskip : skip (text F v ++ itemsText F vs ++ s) =
        c :: (rest ++ itemsText F vs ++ s) := by
      rw [hhead, List.cons_append, List.cons_append, skip_of_head hblank]
    have hback : c :: (rest ++ itemsText F vs ++ s) = text F v ++ itemsText F vs ++ s := by
      rw [hhead]
      rfl
    rw [text, List.cons_append, value_list _ _ hskip hc, hback, hitems]
    rfl
  | .dict ((k, v) :: es), hes =>
    rw [text] at hlength
    have hentries := h.entries k v es hes.2.1 hes.2.2.1 hes.2.2.2
      (Nat.le_of_succ_le_succ hlength) s
    have hskip : skip (quote k ++ lit ": " ++ text F v ++ entriesText F es ++ s) =
        code '"' :: (k.flatMap escape ++ [code '"'] ++ lit ": " ++ text F v ++
          entriesText F es ++ s) := rfl
    rw [text, List.cons_append, value_dict _ _ hskip (by decide), ← hskip]
    have hhead : skip (quote k ++ lit ": " ++ text F v ++ entriesText F es ++ s) =
        quote k ++ lit ": " ++ text F v ++ entriesText F es ++ s := skip_of_head (by decide) _
    rw [hhead, hentries, Option.map_some, ofEntries_of_nodup hes.1]

lemma readsBack (F : FloatText) (n : ℕ) : ReadsBack F n := by
  induction n with
  | zero => exact readsBack_zero
  | succ n ih =>
    exact
      { value := fun v hv hlength s hs => ih.value_succ hv hlength hs
        items := fun v vs hv hvs hlength s => ih.items_succ hv hvs hlength s
        entries := fun k v es hk hv hes hlength s => ih.entries_succ hk hv hes hlength s }

/-- **A value is read back from its text.** -/
theorem loads_text {v : JsonValue} (hv : IsPayload F v) : loads F (text F v) = some v := by
  have hskip := skip_text hv []
  have hvalue := (readsBack F ((text F v).length + 1)).value v hv (Nat.le_succ _) []
    fun c hc => by cases hc
  rw [List.append_nil] at hskip hvalue
  rw [loads, hskip, hvalue]
  rfl

end Values

/-! ## Every text is of printable characters -/

section Printable

variable {F} {t : CodeText}

def IsAsciiText (t : CodeText) : Prop := ∀ c ∈ t, isPrintable c = true

lemma isAsciiText_of_all (h : t.all isPrintable = true) : IsAsciiText t :=
  List.all_eq_true.mp h

lemma IsAsciiText.append {t t' : CodeText} (h : IsAsciiText t) (h' : IsAsciiText t') :
    IsAsciiText (t ++ t') := by
  intro c hc
  rcases List.mem_append.mp hc with hc | hc
  · exact h c hc
  · exact h' c hc

lemma IsAsciiText.cons {c : ℕ} (hc : isPrintable c = true) (h : IsAsciiText t) :
    IsAsciiText (c :: t) := List.forall_mem_cons.mpr ⟨hc, h⟩

lemma isAsciiText_digits (h : IsDigits t) : IsAsciiText t := by
  intro c hc
  have hdigit := h.2 c hc
  rw [isDigit, decide_eq_true_eq] at hdigit
  have hbounds : 48 ≤ c ∧ c ≤ 57 := hdigit
  rw [isPrintable, decide_eq_true_eq]
  omega

lemma IsInteger.isAsciiText (h : IsInteger t) : IsAsciiText t := by
  obtain ⟨digits, hdigits, -, rfl | rfl⟩ := h
  · exact isAsciiText_digits hdigits
  · exact (isAsciiText_digits hdigits).cons (by decide)

lemma IsFloatText.isAsciiText (h : IsFloatText t) : IsAsciiText t := by
  obtain ⟨integer, fraction, exponent, hinteger, hfraction, hexponent, -, rfl⟩ := h
  refine (hinteger.isAsciiText.append ?_).append ?_
  · rcases hfraction with rfl | ⟨digits, hdigits, rfl⟩
    · exact fun c hc => absurd hc List.not_mem_nil
    · exact (isAsciiText_digits hdigits).cons (by decide)
  · rcases hexponent with rfl | ⟨sign, digits, hsign, hdigits, rfl⟩
    · exact fun c hc => absurd hc List.not_mem_nil
    · refine IsAsciiText.append (.cons (by decide) ?_) (isAsciiText_digits hdigits)
      rcases hsign with rfl | ⟨c, hc, rfl⟩
      · exact fun c hc => absurd hc List.not_mem_nil
      · rw [isSign, decide_eq_true_eq] at hc
        intro d hd
        rw [List.mem_singleton.mp hd]
        rcases hc with rfl | rfl <;> decide

lemma isPrintable_hexDigit : ∀ n < 16, isPrintable (hexDigit n) = true := by decide

lemma isAsciiText_unicodeEscape {n : ℕ} (h : n < 0x10000) : IsAsciiText (unicodeEscape n) := by
  refine .cons (by decide) (.cons (by decide) fun c hc => ?_)
  simp only [hex4, List.mem_cons, List.not_mem_nil, or_false] at hc
  rcases hc with rfl | rfl | rfl | rfl <;> exact isPrintable_hexDigit _ (by omega)

lemma letters_printable : ∀ l ∈ letters, isPrintable l.2 = true := by decide

lemma isAsciiText_escape {c : ℕ} (hc : c < 0x110000) : IsAsciiText (escape c) := by
  rw [escape]
  split
  · next e hletter =>
    obtain ⟨before, after, hletters, -⟩ := List.lookup_eq_some_iff.mp hletter
    have hprintable := letters_printable (c, e) (by simp [hletters])
    exact .cons (by decide) (.cons hprintable fun c hc => absurd hc List.not_mem_nil)
  · split_ifs with hprintable hshort
    · exact .cons hprintable fun c hc => absurd hc List.not_mem_nil
    · exact isAsciiText_unicodeEscape hshort
    · exact (isAsciiText_unicodeEscape (by omega)).append (isAsciiText_unicodeEscape (by omega))

lemma isAsciiText_quote (ht : IsJoined t) : IsAsciiText (quote t) := by
  refine .cons (by decide) (IsAsciiText.append ?_ (isAsciiText_of_all rfl))
  intro c hc
  obtain ⟨d, hd, hc⟩ := List.mem_flatMap.mp hc
  exact isAsciiText_escape (ht.2 d hd) c hc

mutual

theorem isAsciiText_text : ∀ v, IsPayload F v → IsAsciiText (text F v)
  | .null, _ | .bool true, _ | .bool false, _ | .float .nan, _ | .float (.infinite true), _
  | .float (.infinite false), _ | .list [], _ | .dict [], _ => isAsciiText_of_all rfl
  | .int n, _ => (isInteger_intText n).isAsciiText
  | .float (.finite q), hq => (F.isFloatText q hq).isAsciiText
  | .str _, ht => isAsciiText_quote ht
  | .list (v :: vs), h =>
    .cons (by decide) ((isAsciiText_text v h.1).append (isAsciiText_items vs h.2))
  | .dict ((_, v) :: es), h =>
    .cons (by decide) (((isAsciiText_quote h.2.1).append (isAsciiText_of_all rfl)).append
      (isAsciiText_text v h.2.2.1) |>.append (isAsciiText_entries es h.2.2.2))

theorem isAsciiText_items : ∀ vs, ArePayloads F vs → IsAsciiText (itemsText F vs)
  | [], _ => isAsciiText_of_all rfl
  | v :: vs, h =>
    ((isAsciiText_of_all rfl).append (isAsciiText_text v h.1)).append (isAsciiText_items vs h.2)

theorem isAsciiText_entries : ∀ es, EntriesArePayloads F es → IsAsciiText (entriesText F es)
  | [], _ => isAsciiText_of_all rfl
  | (_, v) :: es, h =>
    ((((isAsciiText_of_all rfl).append (isAsciiText_quote h.1)).append
      (isAsciiText_of_all rfl)).append (isAsciiText_text v h.2.1)).append
      (isAsciiText_entries es h.2.2)

end

end Printable

end Habeny.Lib.JsonText
