import Habeny.Lib.JsonText
import Mathlib.Data.List.TakeWhile

/-!
# The text format of Prometheus

A reader of the text format (version 0.0.4), after its description: lines that end with a newline;
comments, of which `HELP` and `TYPE` say something about a metric; and samples, which consist of
the name of a metric, labels, a value and perhaps a time.  In the value of a label a backslash, a
quote and a newline are escaped.  Values are doubles, and so a whole number is read as the nearest
double (`double`).

`readLine_sample` says what a written sample is read as, and `read_lines` what a text is.
-/

namespace Habeny.Lib.Exposition

open CodeText JsonText

/-! ## Whole numbers as doubles -/

/-- The nearest number with 53 binary digits, and of two that are equally near the one whose last
digit is even. -/
def round53 (n : ℕ) : ℕ :=
  let unit := 2 ^ (n.log2 - 52)
  if unit < 2 * (n % unit) ∨ (2 * (n % unit) = unit ∧ n / unit % 2 = 1) then
    (n / unit + 1) * unit
  else n / unit * unit

/-- Doubles are less than this power of two. -/
def doubleExponent : ℕ := 1024

/-- The double nearest to a whole number, if it is not too large for one. -/
def double (n : ℤ) : Option ℤ :=
  if round53 n.natAbs < 2 ^ doubleExponent then some (n.sign * round53 n.natAbs) else none

lemma round53_of_lt {n : ℕ} (h : n < 2 ^ 53) : round53 n = n := by
  have hlog : n.log2 - 52 = 0 := by
    by_cases hn : n = 0
    · rw [hn]
      rfl
    · have hlt := (Nat.log2_lt hn).mpr h
      omega
  simp only [round53, hlog, pow_zero, Nat.mod_one, Nat.div_one, Nat.mul_one]
  rw [if_neg]
  omega

/-- Every whole number up to 2^53 is a double. -/
lemma double_of_le {n : ℤ} (h : n.natAbs ≤ 2 ^ 53) : double n = some n := by
  have hround : round53 n.natAbs = n.natAbs := by
    obtain hlt | heq := Nat.lt_or_eq_of_le h
    · exact round53_of_lt hlt
    · rw [heq]
      decide
  have hsmall : round53 n.natAbs < 2 ^ doubleExponent := by
    rw [hround]
    exact Nat.lt_of_le_of_lt h (Nat.pow_lt_pow_right (by decide) (by decide))
  rw [double, if_pos hsmall, hround, Int.sign_mul_natAbs]

/-! ## Lines -/

/-- The lines of a text that end with a newline, and what follows them. -/
def textLines : CodeText → List CodeText × CodeText
  | [] => ([], [])
  | c :: t =>
    if c = newline then ([] :: (textLines t).1, (textLines t).2)
    else
      match textLines t with
      | (l :: ls, rest) => ((c :: l) :: ls, rest)
      | ([], rest) => ([], c :: rest)

lemma textLines_append {line : CodeText} (h : newline ∉ line) (t : CodeText) :
    textLines (line ++ newline :: t) = (line :: (textLines t).1, (textLines t).2) := by
  induction line with
  | nil => simp [textLines]
  | cons c line ih =>
    rw [List.mem_cons, not_or] at h
    rw [List.cons_append, textLines, if_neg (Ne.symm h.1), ih h.2]

/-- A blank or a tab. -/
def isGap (c : ℕ) : Bool := decide (c = 32 ∨ c = 9)

def skipGaps (t : CodeText) : CodeText := t.dropWhile isGap

/-- A text up to the next gap. -/
def word (t : CodeText) : CodeText := t.takeWhile fun c => !isGap c

def afterWord (t : CodeText) : CodeText := skipGaps (t.dropWhile fun c => !isGap c)

/-- After gaps a certain character comes. -/
def expect (c : ℕ) (t : CodeText) : Option CodeText :=
  match skipGaps t with
  | d :: rest => if d = c then some rest else none
  | [] => none

/-! ## Names -/

def isLetter (c : ℕ) : Bool :=
  decide (code 'a' ≤ c ∧ c ≤ code 'z' ∨ code 'A' ≤ c ∧ c ≤ code 'Z' ∨ c = code '_')

def isLabelChar (c : ℕ) : Bool := isLetter c || isDigit c

def isMetricChar (c : ℕ) : Bool := isLabelChar c || decide (c = code ':')

/-- `[a-zA-Z_][a-zA-Z0-9_]*` -/
def isLabelName (t : CodeText) : Bool :=
  t.head?.any isLetter && t.all isLabelChar

/-- `[a-zA-Z_:][a-zA-Z0-9_:]*` -/
def isMetricName (t : CodeText) : Bool :=
  (t.head?.any fun c => isLetter c || decide (c = code ':')) && t.all isMetricChar

/-! ## Entries -/

structure Sample where
  name : CodeText
  labels : List (CodeText × CodeText)
  value : JsonFloat
  timestamp : Option ℤ := none

inductive Entry where
  | help (name text : CodeText)
  | type (name kind : CodeText)
  | sample (s : Sample)

def kinds : List CodeText :=
  [lit "counter", lit "gauge", lit "histogram", lit "summary", lit "untyped"]

/-! ## Values -/

def lower (c : ℕ) : ℕ := if code 'A' ≤ c ∧ c ≤ code 'Z' then c + 32 else c

/-- The values that are no numbers, in any case of the letters. -/
def readSpecial (t : CodeText) : Option JsonFloat :=
  let t := t.map lower
  if t = lit "inf" ∨ t = lit "+inf" then some (.infinite false)
  else if t = lit "-inf" then some (.infinite true)
  else if t = lit "nan" then some .nan
  else none

variable (F : FloatText)

def readNumber (t : CodeText) : Option JsonFloat :=
  match matchInteger t with
  | none => none
  | some (integer, s) =>
    let (fraction, s) := matchFraction s
    let (exponent, s) := matchExponent s
    if s ≠ [] then none
    else if fraction = [] ∧ exponent = [] then
      (double (Json.readInt (integer.map Char.ofNat))).map fun n => .finite n
    else some (F.read t)

def readValue (t : CodeText) : Option JsonFloat :=
  match readSpecial t with
  | some x => some x
  | none => readNumber F t

/-- A time in milliseconds at the end of a line. -/
def readTimestamp (t : CodeText) : Option ℤ :=
  match matchInteger t with
  | some (integer, s) =>
    if skipGaps s = [] then some (Json.readInt (integer.map Char.ofNat)) else none
  | none => none

/-! ## Labels -/

def backslash : ℕ := code '\\'

def quotation : ℕ := code '"'

/-- What an escaped character stands for. -/
def unescape (c : ℕ) : Option ℕ :=
  if c = backslash then some backslash
  else if c = quotation then some quotation
  else if c = code 'n' then some newline
  else none

/-- The value of a label, after the quote that opens it. -/
def readQuoted : CodeText → Option (CodeText × CodeText)
  | [] => none
  | c :: t =>
    if c = quotation then some ([], t)
    else if c = backslash then
      match t with
      | [] => none
      | e :: t =>
        match unescape e with
        | some u => (readQuoted t).map fun r => (u :: r.1, r.2)
        | none => none
    else (readQuoted t).map fun r => (c :: r.1, r.2)

def readLabel (t : CodeText) : Option ((CodeText × CodeText) × CodeText) :=
  let name := (skipGaps t).takeWhile isLabelChar
  if isLabelName name then
    (expect (code '=') ((skipGaps t).dropWhile isLabelChar)).bind fun s =>
      (expect quotation s).bind fun s =>
        (readQuoted s).map fun r => ((name, r.1), r.2)
  else none

/-- Labels, after the brace that opens them; the last one may be followed by a comma. -/
def readLabels : ℕ → CodeText → Option (List (CodeText × CodeText) × CodeText)
  | 0, _ => none
  | fuel + 1, t =>
    match expect (code '}') t with
    | some rest => some ([], rest)
    | none =>
      (readLabel t).bind fun l =>
        match expect (code ',') l.2 with
        | some s => (readLabels fuel s).map fun r => (l.1 :: r.1, r.2)
        | none => (expect (code '}') l.2).map fun s => ([l.1], s)

/-! ## The reader -/

def readSample (t : CodeText) : Option Sample :=
  let name := t.takeWhile isMetricChar
  if isMetricName name then
    let s := t.dropWhile isMetricChar
    (match expect (code '{') s with
      | some s => readLabels (s.length + 1) s
      | none => some ([], s)).bind fun r =>
        let s := skipGaps r.2
        (readValue F (word s)).bind fun value =>
          if afterWord s = [] then some { name, labels := r.1, value }
          else (readTimestamp (afterWord s)).map fun n =>
            { name, labels := r.1, value, timestamp := some n }
  else none

/-- The text of a `HELP` line, in which a backslash and a newline are escaped. -/
def readHelp : CodeText → Option CodeText
  | [] => some []
  | c :: t =>
    if c = backslash then
      match t with
      | [] => none
      | e :: t =>
        if e = backslash then (readHelp t).map (backslash :: ·)
        else if e = code 'n' then (readHelp t).map (newline :: ·)
        else none
    else (readHelp t).map (c :: ·)

/-- A comment, after the `#`. -/
def readComment (t : CodeText) : Option (Option Entry) :=
  let s := skipGaps t
  let name := word (afterWord s)
  let rest := afterWord (afterWord s)
  if word s = lit "HELP" then
    if isMetricName name then (readHelp rest).map fun text => some (.help name text) else none
  else if word s = lit "TYPE" then
    if isMetricName name ∧ word rest ∈ kinds ∧ afterWord rest = [] then
      some (some (.type name (word rest)))
    else none
  else some none

def readLine (t : CodeText) : Option (Option Entry) :=
  match skipGaps t with
  | [] => some none
  | c :: s =>
    if c = code '#' then readComment s
    else (readSample F (c :: s)).map fun sample => some (.sample sample)

/-- **The reader of a text.** -/
def read (text : CodeText) : Option (List Entry) :=
  if (textLines text).2 = [] then
    ((textLines text).1.mapM (readLine F)).map fun entries => entries.filterMap id
  else none

/-! ## What is written is read -/

section Spans

variable {p : ℕ → Bool} {a t : CodeText} {c : ℕ}

lemma takeWhile_append_stop (ha : ∀ x ∈ a, p x = true) (hc : p c = false) :
    (a ++ c :: t).takeWhile p = a := by
  rw [List.takeWhile_append_of_pos ha, List.takeWhile_cons_of_neg (by simp [hc]), List.append_nil]

lemma dropWhile_append_stop (ha : ∀ x ∈ a, p x = true) (hc : p c = false) :
    (a ++ c :: t).dropWhile p = c :: t := by
  rw [List.dropWhile_append_of_pos ha, List.dropWhile_cons_of_neg (by simp [hc])]

lemma skipGaps_cons (hc : isGap c = false) : skipGaps (c :: t) = c :: t :=
  List.dropWhile_cons_of_neg (by simp [hc])

lemma skipGaps_blank : skipGaps (32 :: t) = skipGaps t := rfl

lemma expect_self (hc : isGap c = false) : expect c (c :: t) = some t := by
  rw [expect, skipGaps_cons hc]
  exact if_pos rfl

lemma expect_ne {d : ℕ} (hd : isGap d = false) (hne : d ≠ c) : expect c (d :: t) = none := by
  rw [expect, skipGaps_cons hd]
  exact if_neg hne

/-- A text without gaps, up to a gap or the end. -/
lemma word_append (ha : ∀ x ∈ a, isGap x = false) : word (a ++ 32 :: t) = a :=
  takeWhile_append_stop (fun x hx => by simp [ha x hx]) rfl

lemma afterWord_append (ha : ∀ x ∈ a, isGap x = false) : afterWord (a ++ 32 :: t) = skipGaps t := by
  rw [afterWord, dropWhile_append_stop (fun x hx => by simp [ha x hx]) rfl, skipGaps_blank]

lemma word_of_noGap (ha : ∀ x ∈ a, isGap x = false) : word a = a :=
  List.takeWhile_eq_self_iff.mpr fun x hx => by simp [ha x hx]

lemma afterWord_of_noGap (ha : ∀ x ∈ a, isGap x = false) : afterWord a = [] := by
  rw [afterWord, List.dropWhile_eq_nil_iff.mpr fun x hx => by simp [ha x hx]]
  rfl

end Spans

section Names

variable {c : ℕ} {name : CodeText}

/-- Every character of a name is printable, and none is special in a line. -/
lemma isLabelChar_bounds (h : isLabelChar c = true) : 48 ≤ c ∧ c ≤ 122 := by
  simp only [isLabelChar, isLetter, isDigit, Bool.or_eq_true, decide_eq_true_eq, code] at h
  have h0 : '0'.toNat = 48 := rfl
  have h9 : '9'.toNat = 57 := rfl
  have ha : 'a'.toNat = 97 := rfl
  have hz : 'z'.toNat = 122 := rfl
  have hA : 'A'.toNat = 65 := rfl
  have hZ : 'Z'.toNat = 90 := rfl
  have hu : '_'.toNat = 95 := rfl
  omega

lemma isMetricChar_bounds (h : isMetricChar c = true) : 48 ≤ c ∧ c ≤ 122 := by
  rw [isMetricChar, Bool.or_eq_true, decide_eq_true_eq] at h
  obtain h | rfl := h
  · exact isLabelChar_bounds h
  · decide

lemma isLabelName_iff : isLabelName name = true ↔
    ∃ c t, name = c :: t ∧ isLetter c = true ∧ ∀ x ∈ name, isLabelChar x = true := by
  cases name with
  | nil => simp [isLabelName]
  | cons c t => simp [isLabelName]

lemma isMetricName_iff : isMetricName name = true ↔
    ∃ c t, name = c :: t ∧ (isLetter c || decide (c = code ':')) = true ∧
      ∀ x ∈ name, isMetricChar x = true := by
  cases name with
  | nil => simp [isMetricName]
  | cons c t => simp [isMetricName]

lemma noGap_of_metricName (h : isMetricName name = true) : ∀ x ∈ name, isGap x = false := by
  obtain ⟨-, -, -, -, hall⟩ := isMetricName_iff.mp h
  intro x hx
  have hbounds := isMetricChar_bounds (hall x hx)
  rw [isGap, decide_eq_false_iff_not]
  omega

lemma newline_notMem_metricName (h : isMetricName name = true) : newline ∉ name := by
  obtain ⟨-, -, -, -, hall⟩ := isMetricName_iff.mp h
  intro hmem
  exact absurd (isMetricChar_bounds (hall newline hmem)).1 (by decide)

end Names

/-! ### Labels -/

/-- A character of the value of a label as it is written. -/
def escapeChar (c : ℕ) : CodeText :=
  if c = backslash then [backslash, backslash]
  else if c = newline then [backslash, code 'n']
  else if c = quotation then [backslash, quotation]
  else [c]

def escape (t : CodeText) : CodeText := t.flatMap escapeChar

def labelText (l : CodeText × CodeText) : CodeText :=
  l.1 ++ code '=' :: quotation :: (escape l.2 ++ [quotation])

/-- Labels with commas between them, and the brace that closes them. -/
def labelsText : List (CodeText × CodeText) → CodeText
  | [] => [code '}']
  | [l] => labelText l ++ [code '}']
  | l :: ls => labelText l ++ code ',' :: labelsText ls

/-- **A value is read back from what is written**, whatever follows the quote. -/
lemma readQuoted_escape (v t : CodeText) :
    readQuoted (escape v ++ quotation :: t) = some (v, t) := by
  induction v with
  | nil =>
    rw [escape, List.flatMap_nil, List.nil_append, readQuoted.eq_def]
    exact if_pos rfl
  | cons c v ih =>
    have hescape : escape (c :: v) ++ quotation :: t =
        escapeChar c ++ (escape v ++ quotation :: t) := by
      simp [escape]
    rw [hescape, escapeChar]
    split_ifs with hback hline hquote
    · subst hback
      show (readQuoted (escape v ++ quotation :: t)).map _ = _
      rw [ih]
      rfl
    · subst hline
      show (readQuoted (escape v ++ quotation :: t)).map _ = _
      rw [ih]
      rfl
    · subst hquote
      show (readQuoted (escape v ++ quotation :: t)).map _ = _
      rw [ih]
      rfl
    · rw [List.singleton_append, readQuoted.eq_def]
      simp only [if_neg hquote, if_neg hback, ih, Option.map_some]

lemma newline_notMem_escape (v : CodeText) : newline ∉ escape v := by
  intro hmem
  obtain ⟨c, -, hc⟩ := List.mem_flatMap.mp hmem
  unfold escapeChar at hc
  split_ifs at hc with hback hline hquote
  · exact absurd hc (by decide)
  · exact absurd hc (by decide)
  · exact absurd hc (by decide)
  · exact hline (List.mem_singleton.mp hc).symm

lemma noGap_of_labelName {name : CodeText} (h : isLabelName name = true) {x : ℕ}
    (hx : x ∈ name) : isGap x = false := by
  obtain ⟨-, -, -, -, hall⟩ := isLabelName_iff.mp h
  have hbounds := isLabelChar_bounds (hall x hx)
  rw [isGap, decide_eq_false_iff_not]
  omega

lemma readLabel_labelText {l : CodeText × CodeText} (h : isLabelName l.1 = true)
    (t : CodeText) : readLabel (labelText l ++ t) = some (l, t) := by
  obtain ⟨name, v⟩ := l
  obtain ⟨c, rest, rfl, -, hall⟩ := isLabelName_iff.mp h
  have htext : labelText (c :: rest, v) ++ t =
      (c :: rest) ++ code '=' :: quotation :: (escape v ++ quotation :: t) := by
    simp [labelText]
  have hskip : skipGaps ((c :: rest) ++ code '=' :: quotation :: (escape v ++ quotation :: t)) =
      (c :: rest) ++ code '=' :: quotation :: (escape v ++ quotation :: t) :=
    skipGaps_cons (noGap_of_labelName h List.mem_cons_self)
  have hequal : isLabelChar (code '=') = false := by decide
  rw [htext, readLabel]
  simp only [hskip, takeWhile_append_stop hall hequal, dropWhile_append_stop hall hequal, h,
    if_true]
  rw [expect_self (by decide), Option.bind_some, expect_self (by decide), Option.bind_some,
    readQuoted_escape]
  rfl

lemma expect_labelText {l : CodeText × CodeText} (h : isLabelName l.1 = true) (t : CodeText) :
    expect (code '}') (labelText l ++ t) = none := by
  obtain ⟨name, v⟩ := l
  obtain ⟨c, rest, rfl, hletter, hall⟩ := isLabelName_iff.mp h
  refine expect_ne (noGap_of_labelName h List.mem_cons_self) ?_
  have hbounds := isLabelChar_bounds (hall c List.mem_cons_self)
  intro heq
  rw [heq] at hbounds
  exact absurd hbounds.2 (by decide)

/-- **Labels are read back from what is written.** -/
lemma readLabels_labelsText {ls : List (CodeText × CodeText)}
    (h : ∀ l ∈ ls, isLabelName l.1 = true) (t : CodeText) {fuel : ℕ} (hfuel : ls.length < fuel) :
    readLabels fuel (labelsText ls ++ t) = some (ls, t) := by
  induction ls generalizing fuel with
  | nil =>
    obtain ⟨fuel, rfl⟩ := Nat.exists_eq_succ_of_ne_zero (Nat.ne_zero_of_lt hfuel)
    rw [readLabels, labelsText, List.singleton_append, expect_self (by decide)]
  | cons l ls ih =>
    obtain ⟨fuel, rfl⟩ := Nat.exists_eq_succ_of_ne_zero (Nat.ne_zero_of_lt hfuel)
    have hl := h l List.mem_cons_self
    cases ls with
    | nil =>
      rw [labelsText, List.append_assoc, readLabels, expect_labelText hl, List.singleton_append]
      simp only
      rw [readLabel_labelText hl, Option.bind_some, expect_ne (by decide) (by decide)]
      simp only
      rw [expect_self (by decide)]
      rfl
    | cons l' ls =>
      have hshort : (l' :: ls).length < fuel := by
        simp only [List.length_cons] at hfuel ⊢
        omega
      have hrest := ih (fun k hk => h k (List.mem_cons_of_mem l hk)) hshort
      rw [labelsText, List.append_assoc, readLabels, expect_labelText hl, List.cons_append]
      · simp only
        rw [readLabel_labelText hl, Option.bind_some, expect_self (by decide)]
        simp only
        rw [hrest]
        rfl
      · intro heq
        cases heq

lemma length_le_labelsText (ls : List (CodeText × CodeText)) :
    ls.length ≤ (labelsText ls).length := by
  induction ls with
  | nil => exact Nat.zero_le _
  | cons l ls ih =>
    cases ls with
    | nil => simp [labelsText]
    | cons l' ls =>
      have htext : labelsText (l :: l' :: ls) =
          labelText l ++ code ',' :: labelsText (l' :: ls) := rfl
      rw [htext, List.length_append, List.length_cons (a := code ',')]
      show (l' :: ls).length + 1 ≤ _
      omega

lemma newline_notMem_labelsText {ls : List (CodeText × CodeText)}
    (h : ∀ l ∈ ls, isLabelName l.1 = true) : newline ∉ labelsText ls := by
  have hlabel : ∀ l ∈ ls, newline ∉ labelText l := by
    intro l hl hmem
    obtain ⟨-, -, -, -, hall⟩ := isLabelName_iff.mp (h l hl)
    simp only [labelText, List.mem_append, List.mem_cons, List.not_mem_nil, or_false] at hmem
    obtain hmem | heq | heq | hmem | heq := hmem
    · exact absurd (isLabelChar_bounds (hall newline hmem)).1 (by decide)
    · exact absurd heq (by decide)
    · exact absurd heq (by decide)
    · exact newline_notMem_escape l.2 hmem
    · exact absurd heq (by decide)
  clear h
  induction ls with
  | nil => decide
  | cons l ls ih =>
    have hl := hlabel l List.mem_cons_self
    have hls := ih fun k hk => hlabel k (List.mem_cons_of_mem l hk)
    cases ls with
    | nil =>
      rw [labelsText, List.mem_append, List.mem_singleton]
      exact not_or.mpr ⟨hl, by decide⟩
    | cons l' ls =>
      rw [labelsText, List.mem_append, List.mem_cons]
      · exact not_or.mpr ⟨hl, not_or.mpr ⟨by decide, hls⟩⟩
      · intro heq
        cases heq

/-! ### Values -/

section Values

variable {F} {t : CodeText}

lemma lower_of_digit {c : ℕ} (h : isDigit c = true) : lower c = c := by
  rw [isDigit, decide_eq_true_eq] at h
  have h9 : code '9' = 57 := rfl
  have hA : code 'A' = 65 := rfl
  rw [lower, if_neg (by omega)]

/-- What begins with an integer is a number. -/
lemma readSpecial_integer (h : IsInteger t) (s : CodeText) : readSpecial (t ++ s) = none := by
  obtain ⟨digits, ⟨hne, hdigits⟩, -, hor⟩ := h
  obtain ⟨d, ds, rfl⟩ := List.exists_cons_of_ne_nil hne
  have hd := hdigits d List.mem_cons_self
  have hlower := lower_of_digit hd
  have hbounds : 48 ≤ d ∧ d ≤ 57 := of_decide_eq_true hd
  obtain rfl | rfl := hor
  · have hhead : ((d :: ds ++ s).map lower).head? = some d := by
      rw [List.cons_append, List.map_cons, hlower]
      rfl
    have hne : ∀ w : CodeText, (∀ c ∈ w.head?, c < 48 ∨ 57 < c) →
        (d :: ds ++ s).map lower ≠ w := by
      intro w hw heq
      have := hw d (heq ▸ hhead)
      omega
    rw [readSpecial, if_neg, if_neg, if_neg]
    · exact hne _ (by decide)
    · exact hne _ (by decide)
    · rintro (heq | heq)
      · exact hne _ (by decide) heq
      · exact hne _ (by decide) heq
  · have hsecond : ((code '-' :: d :: ds ++ s).map lower)[1]? = some d := by
      simp only [List.cons_append, List.map_cons, hlower]
      rfl
    have hne : ∀ w : CodeText, (∀ c ∈ w[1]?, c < 48 ∨ 57 < c) →
        (code '-' :: d :: ds ++ s).map lower ≠ w := by
      intro w hw heq
      have := hw d (heq ▸ hsecond)
      omega
    rw [readSpecial, if_neg, if_neg, if_neg]
    · exact hne _ (by decide)
    · exact hne _ (by decide)
    · rintro (heq | heq)
      · exact hne _ (by decide) heq
      · exact hne _ (by decide) heq

/-- **A whole number is read as the nearest double.** -/
lemma readValue_intText {n m : ℤ} (h : double n = some m) :
    readValue F (intText n) = some (.finite m) := by
  have hinteger := isInteger_intText n
  have hspecial := readSpecial_integer hinteger []
  have hmatch := matchInteger_append (s := []) hinteger (fun c hc => by cases hc)
  rw [List.append_nil] at hspecial hmatch
  rw [readValue, hspecial]
  show readNumber F (intText n) = _
  have hread : Json.readInt ((intText n).map Char.ofNat) = n := by
    rw [intText, List.map_map]
    exact (congrArg Json.readInt (List.map_id'' Char.ofNat_toNat _)).trans (Json.readInt_intText n)
  simp [readNumber, hmatch, matchFraction, matchExponent, hread, h]

/-- **A float is read back.** -/
lemma readValue_repr {q : ℚ} (hq : F.isFloat q) : readValue F (F.repr q) = some (.finite q) := by
  obtain ⟨integer, fraction, exponent, hinteger, hfraction, hexponent, hany, hrepr⟩ :=
    F.isFloatText q hq
  have hspecial : readSpecial (F.repr q) = none := by
    rw [hrepr, List.append_assoc]
    exact readSpecial_integer hinteger _
  have hend : NumberEnds ([] : CodeText) := fun c hc => by cases hc
  have hafter : NoDigit exponent ∧ exponent.head? ≠ some (code '.') := by
    rcases hexponent with rfl | ⟨sign, digits, -, -, rfl⟩
    · exact ⟨hend.noDigit, fun hdot => by cases hdot⟩
    · exact ⟨fun c hc => by cases hc; rfl, fun h => absurd (Option.some.inj h) (by decide)⟩
  have hmiddle : NoDigit (fraction ++ exponent) := by
    rcases hfraction with rfl | ⟨digits, -, rfl⟩
    · exact hafter.1
    · exact fun c hc => by cases hc; rfl
  have hexp := matchExponent_append (s := []) hexponent hend.noDigit fun c hc => (hend c hc).2.2
  rw [List.append_nil] at hexp
  rw [readValue, hspecial]
  show readNumber F (F.repr q) = _
  rw [readNumber, hrepr, List.append_assoc, matchInteger_append hinteger hmiddle]
  simp only [matchFraction_append hfraction hafter.1 hafter.2, hexp, ne_eq, not_true, if_false]
  rw [if_neg (fun h => hany.elim (fun hf => hf h.1) fun he => he h.2), ← List.append_assoc,
    ← hrepr, F.read_repr q hq]

/-- The characters of numbers. -/
def isNumberChar (c : ℕ) : Bool :=
  isDigit c || decide (c ∈ [code '-', code '+', code '.', code 'e'])

lemma isNumberChar_of_digit {c : ℕ} (h : isDigit c = true) : isNumberChar c = true := by
  rw [isNumberChar, h]
  rfl

lemma isNumberChar_integer (h : IsInteger t) : ∀ c ∈ t, isNumberChar c = true := by
  obtain ⟨digits, ⟨-, hdigits⟩, -, hor⟩ := h
  intro c hc
  obtain rfl | rfl := hor
  · exact isNumberChar_of_digit (hdigits c hc)
  · obtain rfl | hc := List.mem_cons.mp hc
    · decide
    · exact isNumberChar_of_digit (hdigits c hc)

lemma isNumberChar_float (h : IsFloatText t) : ∀ c ∈ t, isNumberChar c = true := by
  obtain ⟨integer, fraction, exponent, hinteger, hfraction, hexponent, -, rfl⟩ := h
  intro c hc
  rw [List.mem_append, List.mem_append] at hc
  obtain (hc | hc) | hc := hc
  · exact isNumberChar_integer hinteger c hc
  · obtain rfl | ⟨digits, ⟨-, hdigits⟩, rfl⟩ := hfraction
    · cases hc
    · obtain rfl | hc := List.mem_cons.mp hc
      · decide
      · exact isNumberChar_of_digit (hdigits c hc)
  · obtain rfl | ⟨sign, digits, hsign, ⟨-, hdigits⟩, rfl⟩ := hexponent
    · cases hc
    · rw [List.cons_append, List.mem_cons, List.mem_append] at hc
      obtain rfl | hc | hc := hc
      · decide
      · obtain rfl | ⟨d, hd, rfl⟩ := hsign
        · cases hc
        · rw [List.mem_singleton] at hc
          subst hc
          rw [isSign, decide_eq_true_eq] at hd
          obtain rfl | rfl := hd <;> decide
      · exact isNumberChar_of_digit (hdigits c hc)

lemma not_special_of_numberChar {c : ℕ} (h : isNumberChar c = true) :
    isGap c = false ∧ c ≠ newline ∧ c ≠ code '{' := by
  rw [isNumberChar, Bool.or_eq_true] at h
  obtain h | h := h
  · have hbounds : 48 ≤ c ∧ c ≤ 57 := of_decide_eq_true h
    have hline : newline = 10 := rfl
    have hbrace : code '{' = 123 := rfl
    rw [isGap, decide_eq_false_iff_not]
    omega
  · have hall : ∀ d ∈ [code '-', code '+', code '.', code 'e'],
        isGap d = false ∧ d ≠ newline ∧ d ≠ code '{' := by decide
    exact hall c (of_decide_eq_true h)

end Values

/-! ### Lines -/

section Lines

variable {F} {name w : CodeText} {x : JsonFloat}

/-- The name and the labels of a sample as they are written. -/
def seriesText (name : CodeText) (labels : List (CodeText × CodeText)) : CodeText :=
  if labels = [] then name else name ++ code '{' :: labelsText labels

lemma newline_notMem_seriesText {labels : List (CodeText × CodeText)}
    (hname : isMetricName name = true) (hlabels : ∀ l ∈ labels, isLabelName l.1 = true) :
    newline ∉ seriesText name labels := by
  have hmetric := newline_notMem_metricName hname
  unfold seriesText
  split_ifs
  · exact hmetric
  · rw [List.mem_append, List.mem_cons]
    exact not_or.mpr ⟨hmetric, not_or.mpr ⟨by decide, newline_notMem_labelsText hlabels⟩⟩

/-- A value as it is written in a line. -/
structure IsValueText (F : FloatText) (w : CodeText) (x : JsonFloat) : Prop where
  ne_nil : w ≠ []
  noBrace : w.head? ≠ some (code '{')
  noGap : ∀ c ∈ w, isGap c = false ∧ c ≠ newline
  read_eq : readValue F w = some x

/-- What consists of the characters of numbers, and is read. -/
lemma isValueText_of_chars (hne : w ≠ []) (hchars : ∀ c ∈ w, isNumberChar c = true)
    (hread : readValue F w = some x) : IsValueText F w x where
  ne_nil := hne
  noBrace := fun hhead =>
    (not_special_of_numberChar (hchars _ (List.mem_of_head? hhead))).2.2 rfl
  noGap := fun c hc =>
    have hspecial := not_special_of_numberChar (hchars c hc)
    ⟨hspecial.1, hspecial.2.1⟩
  read_eq := hread

lemma isValueText_intText {n m : ℤ} (h : double n = some m) :
    IsValueText F (intText n) (.finite m) := by
  have hinteger := isInteger_intText n
  refine isValueText_of_chars ?_ (isNumberChar_integer hinteger) (readValue_intText h)
  obtain ⟨c, t, heq, -⟩ := hinteger.head
  exact heq ▸ List.cons_ne_nil c t

lemma isValueText_repr {q : ℚ} (h : F.isFloat q) : IsValueText F (F.repr q) (.finite q) := by
  have htext := F.isFloatText q h
  refine isValueText_of_chars ?_ (isNumberChar_float htext) (readValue_repr h)
  obtain ⟨integer, fraction, exponent, hinteger, -, -, -, heq⟩ := htext
  obtain ⟨c, t, hcons, -⟩ := hinteger.head
  rw [heq, hcons]
  exact List.cons_ne_nil c _

lemma IsValueText.word (h : IsValueText F w x) : word w = w :=
  word_of_noGap fun c hc => (h.noGap c hc).1

lemma IsValueText.afterWord (h : IsValueText F w x) : afterWord w = [] :=
  afterWord_of_noGap fun c hc => (h.noGap c hc).1

lemma IsValueText.skipGaps (h : IsValueText F w x) : skipGaps w = w := by
  obtain ⟨c, t, rfl⟩ := List.exists_cons_of_ne_nil h.ne_nil
  exact skipGaps_cons (h.noGap c List.mem_cons_self).1

/-- What is left of a line after the labels is a value. -/
lemma readSample_value {labels : List (CodeText × CodeText)} (h : IsValueText F w x) :
    (some (labels, 32 :: w) : Option (List (CodeText × CodeText) × CodeText)).bind (fun r =>
      let s := skipGaps r.2
      (readValue F (word s)).bind fun value =>
        if afterWord s = [] then some ({ name, labels := r.1, value } : Sample)
        else (readTimestamp (afterWord s)).map fun n =>
          { name, labels := r.1, value, timestamp := some n }) =
      some { name, labels, value := x } := by
  rw [Option.bind_some]
  simp only [skipGaps_blank, h.skipGaps, h.word, h.read_eq, h.afterWord, Option.bind_some,
    if_true]

/-- **A sample is read back from its line.** -/
theorem readLine_sample {labels : List (CodeText × CodeText)} (hname : isMetricName name = true)
    (hlabels : ∀ l ∈ labels, isLabelName l.1 = true) (h : IsValueText F w x) :
    readLine F (seriesText name labels ++ 32 :: w) =
      some (some (.sample { name, labels, value := x })) := by
  obtain ⟨c, rest, rfl, hc, hall⟩ := isMetricName_iff.mp hname
  have hgap := noGap_of_metricName hname c List.mem_cons_self
  have hcomment : c ≠ code '#' := by
    rintro rfl
    exact absurd hc (by decide)
  have hblank : isMetricChar 32 = false := by decide
  have hbrace : isMetricChar (code '{') = false := by decide
  unfold seriesText
  split_ifs with hnone
  · subst hnone
    have hskip : skipGaps ((c :: rest) ++ 32 :: w) = c :: (rest ++ 32 :: w) := skipGaps_cons hgap
    have htake : (c :: (rest ++ 32 :: w)).takeWhile isMetricChar = c :: rest :=
      takeWhile_append_stop (a := c :: rest) hall hblank
    have hdrop : (c :: (rest ++ 32 :: w)).dropWhile isMetricChar = 32 :: w :=
      dropWhile_append_stop (a := c :: rest) hall hblank
    have hopen : expect (code '{') (32 :: w) = none := by
      obtain ⟨d, ds, rfl⟩ := List.exists_cons_of_ne_nil h.ne_nil
      rw [expect, skipGaps_blank, h.skipGaps]
      exact if_neg fun heq => h.noBrace (congrArg some heq)
    rw [readLine, hskip]
    simp only [if_neg hcomment, readSample, htake, hdrop, hname, if_true, hopen]
    rw [readSample_value h]
    rfl
  · have hskip : skipGaps ((c :: rest) ++ code '{' :: labelsText labels ++ 32 :: w) =
        c :: (rest ++ code '{' :: (labelsText labels ++ 32 :: w)) := by
      rw [List.append_assoc]
      exact skipGaps_cons hgap
    have htake : (c :: (rest ++ code '{' :: (labelsText labels ++ 32 :: w))).takeWhile
        isMetricChar = c :: rest := takeWhile_append_stop (a := c :: rest) hall hbrace
    have hdrop : (c :: (rest ++ code '{' :: (labelsText labels ++ 32 :: w))).dropWhile
        isMetricChar = code '{' :: (labelsText labels ++ 32 :: w) :=
      dropWhile_append_stop (a := c :: rest) hall hbrace
    have hfuel : labels.length < (labelsText labels ++ 32 :: w).length + 1 := by
      have hlength := length_le_labelsText labels
      rw [List.length_append]
      omega
    rw [readLine, hskip]
    simp only [if_neg hcomment, readSample, htake, hdrop, hname, if_true]
    rw [expect_self (by decide)]
    simp only
    rw [readLabels_labelsText hlabels _ hfuel, readSample_value h]
    rfl

lemma readHelp_plain {text : CodeText} (h : backslash ∉ text) : readHelp text = some text := by
  induction text with
  | nil => rfl
  | cons c text ih =>
    rw [List.mem_cons, not_or] at h
    rw [readHelp.eq_def]
    simp only [if_neg (Ne.symm h.1), ih h.2, Option.map_some]

/-- The text of a `HELP` line that is written as it is. -/
def isPlainHelp (text : CodeText) : Bool :=
  text.head?.all (fun c => !isGap c) && text.all fun c => decide (c ≠ backslash ∧ c ≠ newline)

lemma readLine_help {text : CodeText} (hname : isMetricName name = true)
    (htext : isPlainHelp text = true) :
    readLine F (lit "# HELP " ++ (name ++ 32 :: text)) = some (some (.help name text)) := by
  have hname' := noGap_of_metricName hname
  obtain ⟨c, rest, rfl, -, -⟩ := isMetricName_iff.mp hname
  rw [isPlainHelp, Bool.and_eq_true, List.all_eq_true] at htext
  have hskip : skipGaps text = text := by
    cases text with
    | nil => rfl
    | cons d text => exact skipGaps_cons (by simpa using htext.1)
  have hplain : backslash ∉ text := by
    intro hmem
    exact (of_decide_eq_true (htext.2 backslash hmem)).1 rfl
  have hline : readLine F (lit "# HELP " ++ ((c :: rest) ++ 32 :: text)) =
      readComment (32 :: (lit "HELP" ++ 32 :: ((c :: rest) ++ 32 :: text))) := rfl
  have hafter : afterWord (lit "HELP" ++ 32 :: ((c :: rest) ++ 32 :: text)) =
      (c :: rest) ++ 32 :: text := by
    rw [afterWord_append (by decide)]
    exact skipGaps_cons (hname' c List.mem_cons_self)
  have hword : word (lit "HELP" ++ 32 :: ((c :: rest) ++ 32 :: text)) = lit "HELP" :=
    word_append (by decide)
  have hstart : skipGaps (32 :: (lit "HELP" ++ 32 :: ((c :: rest) ++ 32 :: text))) =
      lit "HELP" ++ 32 :: ((c :: rest) ++ 32 :: text) := rfl
  rw [hline, readComment]
  simp only [hstart, hword, hafter, if_true]
  rw [word_append hname', afterWord_append hname', hskip, if_pos hname, readHelp_plain hplain]
  rfl

lemma readLine_type {kind : CodeText} (hname : isMetricName name = true) (hkind : kind ∈ kinds) :
    readLine F (lit "# TYPE " ++ (name ++ 32 :: kind)) = some (some (.type name kind)) := by
  have hname' := noGap_of_metricName hname
  obtain ⟨c, rest, rfl, -, -⟩ := isMetricName_iff.mp hname
  have hgaps : (∀ x ∈ kind, isGap x = false) ∧ kind ≠ [] := by
    have hall : ∀ k ∈ kinds, (∀ x ∈ k, isGap x = false) ∧ k ≠ [] := by decide
    exact hall kind hkind
  obtain ⟨d, ds, rfl⟩ := List.exists_cons_of_ne_nil hgaps.2
  have hline : readLine F (lit "# TYPE " ++ ((c :: rest) ++ 32 :: (d :: ds))) =
      readComment (32 :: (lit "TYPE" ++ 32 :: ((c :: rest) ++ 32 :: (d :: ds)))) := rfl
  have hafter : afterWord (lit "TYPE" ++ 32 :: ((c :: rest) ++ 32 :: (d :: ds))) =
      (c :: rest) ++ 32 :: (d :: ds) := by
    rw [afterWord_append (by decide)]
    exact skipGaps_cons (hname' c List.mem_cons_self)
  have hword : word (lit "TYPE" ++ 32 :: ((c :: rest) ++ 32 :: (d :: ds))) = lit "TYPE" :=
    word_append (by decide)
  have hstart : skipGaps (32 :: (lit "TYPE" ++ 32 :: ((c :: rest) ++ 32 :: (d :: ds)))) =
      lit "TYPE" ++ 32 :: ((c :: rest) ++ 32 :: (d :: ds)) := rfl
  rw [hline, readComment]
  simp only [hstart, hword, hafter, if_true]
  rw [if_neg (by decide), word_append hname', afterWord_append hname',
    skipGaps_cons (hgaps.1 d List.mem_cons_self), word_of_noGap hgaps.1,
    afterWord_of_noGap hgaps.1, if_pos ⟨hname, hkind, rfl⟩]

/-- **A text is read line by line.** -/
theorem read_lines {lines : List CodeText} {entries : List Entry}
    (h : List.Forall₂ (fun line e => newline ∉ line ∧ readLine F line = some (some e))
      lines entries) :
    read F (lines.flatMap fun line => line ++ [newline]) = some entries := by
  have hlines : textLines (lines.flatMap fun line => line ++ [newline]) = (lines, []) := by
    induction h with
    | nil => rfl
    | @cons line e lines entries hline _ ih =>
      rw [List.flatMap_cons, List.append_assoc, List.singleton_append,
        textLines_append hline.1, ih]
  have hread : lines.mapM (readLine F) = some (entries.map some) := by
    clear hlines
    induction h with
    | nil => rfl
    | @cons line e lines entries hline _ ih =>
      rw [List.mapM_cons, hline.2, ih]
      rfl
  rw [read, hlines]
  simp only [if_true, hread, Option.map_some]
  rw [List.filterMap_map]
  simp

end Lines

end Habeny.Lib.Exposition
