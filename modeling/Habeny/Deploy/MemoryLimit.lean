import Habeny.Lib.PyJson

/-!
# Memory limits

The memory limit of a container is asked for as a text, a number and a unit, and is written to its
cgroup as a number of bytes.  The text is matched from its beginning on, and what follows the match
is not looked at, so `1G` and `1 GB` are one byte.

`parseMemoryLimit_iff` says exactly for which texts the number is the one that is asked for.
-/

namespace Habeny.Deploy.MemoryLimit

open Habeny.Lib Habeny.Lib.CodeText

/-! ## Parsing -/

/-- What Unicode says of code points: which are decimal digits, and what `str.upper` makes of
them. -/
structure Unicode where
  digit : ℕ → Option ℕ
  upper : ℕ → CodeText
  digit_ascii : ∀ c < 128, digit c = if 48 ≤ c ∧ c ≤ 57 then some (c - 48) else none
  upper_ascii : ∀ c < 128, upper c = [if 97 ≤ c ∧ c ≤ 122 then c - 32 else c]
  upper_digit : ∀ c, (digit c).isSome = true → upper c = [c]
  upper_ne_nil : ∀ c, upper c ≠ []
  upper_other : ∀ c, 128 ≤ c → digit c = none →
    ∀ u ∈ upper c, digit u = none ∧ u ∉ lit "KMGB"

variable (U : Unicode)

/-- `\d` -/
def Unicode.isDigit (c : ℕ) : Bool := (U.digit c).isSome

def upper (s : CodeText) : CodeText := s.flatMap U.upper

/-- The number that digits are written for. -/
def number (digits : CodeText) : ℕ :=
  digits.foldl (fun n c => 10 * n + (U.digit c).getD 0) 0

/-- `int` of digits. -/
def readInt (digits : CodeText) : Except PyError ℕ :=
  if digits.length ≤ JsonText.maxDigits then .ok (number U digits) else .error .valueError

inductive SizeUnit where
  | kb
  | mb
  | gb
  | b
  deriving DecidableEq

def SizeUnit.name : SizeUnit → CodeText
  | .kb => lit "KB"
  | .mb => lit "MB"
  | .gb => lit "GB"
  | .b => lit "B"

/-- `multipliers.get(unit, 1)` -/
def multiplier : Option SizeUnit → ℕ
  | some .kb => 1024
  | some .mb => 1024 * 1024
  | some .gb => 1024 * 1024 * 1024
  | some .b | none => 1

def sizeUnits : List SizeUnit := [.kb, .mb, .gb, .b]

/-- `([KMG]?B)?` at the beginning of a text. -/
def matchUnit (t : CodeText) : Option SizeUnit := sizeUnits.find? fun u => u.name.isPrefixOf t

/-- `(\d+)([KMG]?B)?` at the beginning of a text: the digits and the unit. -/
def matchLimit (t : CodeText) : Option (CodeText × Option SizeUnit) :=
  let digits := t.takeWhile U.isDigit
  if digits = [] then none else some (digits, matchUnit (t.dropWhile U.isDigit))

def defaultLimit : ℕ := 536870912

/-- What is given as a limit. -/
inductive MemorySpec where
  | number (q : ℚ)
  | text (s : CodeText)

/-- The number without what follows its point. -/
def truncate (q : ℚ) : ℤ := q.num.tdiv q.den

def parseMemoryLimit : MemorySpec → Except PyError CodeText
  | .number q => PyJson.intRepr (truncate q)
  | .text s =>
    match matchLimit U (upper U s) with
    | none => .ok (JsonText.intText defaultLimit)
    | some (digits, unit) => do
      let value ← readInt U digits
      PyJson.intRepr (value * multiplier unit : ℕ)

/-! ## What is asked for -/

/-- A letter in upper case. -/
def asciiUpper (c : ℕ) : ℕ := if 97 ≤ c ∧ c ≤ 122 then c - 32 else c

/-- The unit that a text names, in either case. -/
def unitNamed (t : CodeText) : Option (Option SizeUnit) :=
  if t = [] then some none
  else (sizeUnits.find? fun u => decide (u.name = t.map asciiUpper)).map some

/-- The number of bytes that a text means: digits, then a unit, with blanks around it. -/
def meaning (s : CodeText) : Option ℕ :=
  let digits := s.takeWhile U.isDigit
  if digits = [] then none
  else (unitNamed (strip (s.dropWhile U.isDigit))).map fun unit => number U digits * multiplier unit

/-- The limit that is asked for: the default, if a text means nothing. -/
def askedLimit (s : CodeText) : ℕ := (meaning U s).getD defaultLimit

/-- When a text with these digits and this rest is understood.  If the rest names a unit, there is
no blank before it, unless it is the byte or there are no bytes.  If it does not, the digits and the
unit that it begins with happen to be the default. -/
def Understood (digits rest : CodeText) : Prop :=
  digits.length ≤ JsonText.maxDigits ∧
    match unitNamed (strip rest) with
    | some unit =>
      ((∀ c ∈ rest.head?, isSpace c = false) ∨ multiplier unit = 1 ∨ number U digits = 0) ∧
        PyJson.fewDigits (number U digits * multiplier unit : ℕ) = true
    | none => number U digits * multiplier (matchUnit (upper U rest)) = defaultLimit

/-! ## Upper case -/

section UpperCase

variable {U}

@[simp] lemma upper_nil : upper U [] = [] := rfl

@[simp] lemma upper_cons (c : ℕ) (t : CodeText) : upper U (c :: t) = U.upper c ++ upper U t := rfl

@[simp] lemma upper_append (s t : CodeText) : upper U (s ++ t) = upper U s ++ upper U t :=
  List.flatMap_append

lemma upper_digits {ds : CodeText} (h : ∀ c ∈ ds, U.isDigit c = true) : upper U ds = ds := by
  induction ds with
  | nil => rfl
  | cons c ds ih =>
    rw [upper_cons, U.upper_digit c (h c List.mem_cons_self),
      ih fun d hd => h d (List.mem_cons_of_mem c hd), List.singleton_append]

/-- What is not a digit does not become one in upper case. -/
lemma isDigit_of_mem_upper {c u : ℕ} (hc : U.isDigit c = false) (hu : u ∈ U.upper c) :
    U.isDigit u = false := by
  have hnone : U.digit c = none := by simpa [Unicode.isDigit] using hc
  by_cases hascii : c < 128
  · rw [U.upper_ascii c hascii, List.mem_singleton] at hu
    have hdigit : ¬(48 ≤ c ∧ c ≤ 57) := by
      intro h
      simp [U.digit_ascii c hascii, h] at hnone
    have hlt : u < 128 := by split_ifs at hu <;> omega
    have hu' : ¬(48 ≤ u ∧ u ≤ 57) := by split_ifs at hu <;> omega
    simp [Unicode.isDigit, U.digit_ascii u hlt, hu']
  · simp [Unicode.isDigit, (U.upper_other c (by omega) hnone u hu).1]

/-- The digits at the beginning are the same in upper case. -/
lemma takeWhile_upper (s : CodeText) :
    (upper U s).takeWhile U.isDigit = s.takeWhile U.isDigit ∧
      (upper U s).dropWhile U.isDigit = upper U (s.dropWhile U.isDigit) := by
  have hdigits : ∀ c ∈ s.takeWhile U.isDigit, U.isDigit c = true :=
    fun c hc => List.mem_takeWhile_imp hc
  have hhead : ∀ u ∈ (upper U (s.dropWhile U.isDigit)).head?, U.isDigit u = false := by
    intro u hu
    cases hrest : s.dropWhile U.isDigit with
    | nil => simp [hrest] at hu
    | cons c rest =>
      have hc : U.isDigit c = false := by
        have := List.head?_dropWhile_not U.isDigit s
        simpa [hrest] using this
      rw [hrest, upper_cons, List.head?_append_of_ne_nil _ (U.upper_ne_nil c)] at hu
      exact isDigit_of_mem_upper hc (List.mem_of_mem_head? hu)
  have hupper : upper U s =
      s.takeWhile U.isDigit ++ upper U (s.dropWhile U.isDigit) := by
    conv_lhs => rw [← List.takeWhile_append_dropWhile (p := U.isDigit) (l := s)]
    rw [upper_append, upper_digits hdigits]
  rw [hupper, List.takeWhile_append_of_pos hdigits, List.dropWhile_append_of_pos hdigits]
  cases hrest : upper U (s.dropWhile U.isDigit) with
  | nil => simp
  | cons u rest =>
    have hu : U.isDigit u = false := hhead u (by simp [hrest])
    simp [hu]

lemma matchLimit_upper (s : CodeText) :
    matchLimit U (upper U s) =
      if s.takeWhile U.isDigit = [] then none
      else some (s.takeWhile U.isDigit, matchUnit (upper U (s.dropWhile U.isDigit))) := by
  obtain ⟨hdigits, hrest⟩ := takeWhile_upper (U := U) s
  simp only [matchLimit, hdigits, hrest]

/-- A letter of a unit is in ASCII, in either case. -/
lemma upper_of_mem_name {u : SizeUnit} {c : ℕ} (h : asciiUpper c ∈ u.name) :
    U.upper c = [asciiUpper c] := by
  have hascii : c < 128 := by
    have hname : ∀ d ∈ u.name, d < 91 := by cases u <;> decide
    have := hname _ h
    unfold asciiUpper at this
    split_ifs at this <;> omega
  rw [U.upper_ascii c hascii, asciiUpper]

lemma upper_of_map_eq {t : CodeText} {u : SizeUnit} (h : t.map asciiUpper = u.name) :
    upper U t = u.name := by
  have hletters : ∀ c ∈ t, U.upper c = [asciiUpper c] := by
    intro c hc
    exact upper_of_mem_name (u := u) (h ▸ List.mem_map_of_mem hc)
  rw [← h]
  clear h
  induction t with
  | nil => rfl
  | cons c t ih =>
    rw [upper_cons, hletters c List.mem_cons_self,
      ih fun d hd => hletters d (List.mem_cons_of_mem c hd)]
    rfl

end UpperCase

/-! ## Units -/

section Units

variable {U}

/-- No unit begins a text that begins with another letter. -/
lemma matchUnit_eq_none {t : CodeText} (h : ∀ c ∈ t.head?, c ∉ lit "KMGB") :
    matchUnit t = none := by
  rw [matchUnit, List.find?_eq_none]
  intro u _ hu
  obtain ⟨rest, rfl⟩ := List.isPrefixOf_iff_prefix.mp hu
  cases u <;> exact h _ rfl (by decide)

lemma matchUnit_name (u : SizeUnit) (t : CodeText) : matchUnit (u.name ++ t) = some u := by
  cases u <;> simp [matchUnit, sizeUnits, SizeUnit.name, lit, List.isPrefixOf]

/-- A unit is not found behind a blank. -/
lemma matchUnit_upper_space {c : ℕ} {t : CodeText} (hc : isSpace c = true)
    (hdigit : U.isDigit c = false) : matchUnit (upper U (c :: t)) = none := by
  apply matchUnit_eq_none
  intro u hu
  rw [upper_cons, List.head?_append_of_ne_nil _ (U.upper_ne_nil c)] at hu
  have hmem := List.mem_of_mem_head? hu
  by_cases hascii : c < 128
  · have hspace : ∀ c < 128, isSpace c = true →
        (if 97 ≤ c ∧ c ≤ 122 then c - 32 else c) ∉ lit "KMGB" := by decide
    rw [U.upper_ascii c hascii, List.mem_singleton] at hmem
    exact hmem ▸ hspace c hascii hc
  · exact (U.upper_other c (by omega) (by simpa [Unicode.isDigit] using hdigit) u hmem).2

/-- What a text without a blank at its beginning names is what is found in it. -/
lemma matchUnit_of_unitNamed {t : CodeText} {unit : Option SizeUnit}
    (hhead : ∀ c ∈ t.head?, isSpace c = false) (h : unitNamed (strip t) = some unit) :
    matchUnit (upper U t) = unit := by
  have hdrop : t.dropWhile isSpace = t := by
    cases t with
    | nil => rfl
    | cons c t => exact List.dropWhile_cons_of_neg (by simp [hhead c rfl])
  -- only blanks stand behind the stripped text
  obtain ⟨blanks, hblanks⟩ : strip t <+: t := by
    rw [strip, hdrop]
    exact List.rdropWhile_prefix _ _
  unfold unitNamed at h
  split_ifs at h with hnil
  · cases h
    rw [strip, hdrop, List.rdropWhile_eq_nil_iff] at hnil
    cases t with
    | nil => rfl
    | cons c t =>
      have hc : isSpace c = false := hhead c rfl
      exact absurd (hnil c List.mem_cons_self) (by simp [hc])
  · obtain ⟨u, hfind, rfl⟩ := Option.map_eq_some_iff.mp h
    have hname : u.name = (strip t).map asciiUpper := by simpa using List.find?_some hfind
    rw [← hblanks, upper_append, upper_of_map_eq hname.symm, matchUnit_name]

end Units

/-! ## What is understood -/

lemma intText_injective : Function.Injective JsonText.intText := by
  intro m n h
  have hinj : Function.Injective Char.toNat := fun c d h => Char.ext (UInt32.toNat_inj.mp h)
  exact Json.intText_injective (List.map_injective_iff.mpr hinj h)

lemma intRepr_eq_intText_iff {m n : ℤ} :
    PyJson.intRepr m = .ok (JsonText.intText n) ↔ m = n ∧ PyJson.fewDigits m = true := by
  unfold PyJson.intRepr
  split_ifs with hfew
  · simp [hfew, intText_injective.eq_iff]
  · simp [hfew]

lemma intRepr_default :
    PyJson.intRepr (defaultLimit : ℕ) = .ok (JsonText.intText (defaultLimit : ℕ)) :=
  intRepr_eq_intText_iff.mpr ⟨rfl, by decide⟩

variable {U} in
/-- The limit of a text with digits at its beginning. -/
lemma parseMemoryLimit_of_digits {s : CodeText} (hdigits : s.takeWhile U.isDigit ≠ []) :
    parseMemoryLimit U (.text s) =
      if (s.takeWhile U.isDigit).length ≤ JsonText.maxDigits then
        PyJson.intRepr (number U (s.takeWhile U.isDigit) *
          multiplier (matchUnit (upper U (s.dropWhile U.isDigit))) : ℕ)
      else .error .valueError := by
  rw [parseMemoryLimit, matchLimit_upper, if_neg hdigits]
  show (readInt U _ >>= fun value => _) = _
  unfold readInt
  split_ifs <;> rfl

variable {U} in
/-- With digits at its beginning, a text is read as what is asked for when it is understood. -/
lemma parseMemoryLimit_iff_understood {s : CodeText} (hdigits : s.takeWhile U.isDigit ≠ []) :
    parseMemoryLimit U (.text s) = .ok (JsonText.intText (askedLimit U s : ℕ)) ↔
      Understood U (s.takeWhile U.isDigit) (s.dropWhile U.isDigit) := by
  have hrest : ∀ c ∈ (s.dropWhile U.isDigit).head?, U.isDigit c = false := by
    intro c hc
    have := List.head?_dropWhile_not U.isDigit s
    rw [Option.mem_def.mp hc] at this
    simpa using this
  rw [parseMemoryLimit_of_digits hdigits, Understood, askedLimit, meaning, if_neg hdigits]
  generalize s.takeWhile U.isDigit = digits at *
  generalize s.dropWhile U.isDigit = rest at *
  by_cases hlength : digits.length ≤ JsonText.maxDigits
  swap
  · simp [hlength]
  rw [if_pos hlength, intRepr_eq_intText_iff, Nat.cast_inj]
  simp only [hlength, true_and]
  cases hunit : unitNamed (strip rest) with
  | none =>
    -- the number that is read has to be the default
    simp only [Option.map_none, Option.getD_none]
    refine ⟨fun h => h.1, fun h => ⟨h, ?_⟩⟩
    rw [h]
    decide
  | some unit =>
    simp only [Option.map_some, Option.getD_some]
    by_cases hhead : ∀ c ∈ rest.head?, isSpace c = false
    · rw [matchUnit_of_unitNamed hhead hunit]
      exact ⟨fun h => ⟨.inl hhead, h.2⟩, fun h => ⟨rfl, h.2⟩⟩
    · -- behind a blank the unit is not seen
      obtain ⟨c, t, rfl, hc⟩ : ∃ c t, rest = c :: t ∧ isSpace c = true := by
        cases rest with
        | nil => simp at hhead
        | cons c t => exact ⟨c, t, rfl, by simpa using hhead⟩
      rw [matchUnit_upper_space hc (hrest c rfl)]
      have hone : number U digits * multiplier none = number U digits * multiplier unit ↔
          multiplier unit = 1 ∨ number U digits = 0 := by
        rcases Nat.eq_zero_or_pos (number U digits) with hzero | hpos
        · simp [hzero]
        · rw [Nat.mul_right_inj hpos.ne', show multiplier none = 1 from rfl]
          omega
      rw [hone]
      constructor
      · rintro ⟨h, hfew⟩
        exact ⟨.inr h, hone.mpr h ▸ hfew⟩
      · rintro ⟨h | h, hfew⟩
        · exact absurd h hhead
        · exact ⟨h, hone.mpr h ▸ hfew⟩

/-- **A memory limit is what is asked for** exactly if the text has no digits at its beginning, or
is understood. -/
theorem parseMemoryLimit_iff (s : CodeText) :
    parseMemoryLimit U (.text s) = .ok (JsonText.intText (askedLimit U s : ℕ)) ↔
      s.takeWhile U.isDigit = [] ∨
        Understood U (s.takeWhile U.isDigit) (s.dropWhile U.isDigit) := by
  by_cases hdigits : s.takeWhile U.isDigit = []
  · refine iff_of_true ?_ (.inl hdigits)
    rw [parseMemoryLimit, matchLimit_upper, if_pos hdigits, askedLimit, meaning, if_pos hdigits]
    rfl
  · rw [parseMemoryLimit_iff_understood hdigits]
    simp [hdigits]

/-- The letters and digits of ASCII, and no others. -/
def ascii : Unicode where
  digit c := if 48 ≤ c ∧ c ≤ 57 then some (c - 48) else none
  upper c := [if 97 ≤ c ∧ c ≤ 122 then c - 32 else c]
  digit_ascii _ _ := rfl
  upper_ascii _ _ := rfl
  upper_digit c h := by
    split_ifs at h with hc
    · rw [if_neg (by omega)]
    · simp at h
  upper_ne_nil c := by simp
  upper_other c hc _ u hu := by
    rw [if_neg (by omega), List.mem_singleton] at hu
    subst hu
    refine ⟨if_neg (by omega), fun hmem => ?_⟩
    have hlt : ∀ d ∈ lit "KMGB", d < 128 := by decide
    exact absurd (hlt u hmem) (by omega)

/-- `1G` names no unit and is taken for one byte, and `512 MB` for 512 bytes. -/
theorem unit_ignored :
    askedLimit ascii (lit "1G") = 536870912 ∧
      parseMemoryLimit ascii (.text (lit "1G")) = .ok (lit "1") ∧
      askedLimit ascii (lit "512 MB") = 536870912 ∧
      parseMemoryLimit ascii (.text (lit "512 MB")) = .ok (lit "512") := by
  decide +kernel

end Habeny.Deploy.MemoryLimit
