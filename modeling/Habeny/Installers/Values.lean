import Habeny.Deploy.MemoryLimit
import Habeny.Lib.CodePattern
import Habeny.Lib.PyRepr
import Habeny.Lib.ShellReadings

/-!
# The values of the installers

The formats of the values that stand in the scripts which are run in containers, and in the paths of
packages.  The installers check each value before they use it, wherever it comes from.

A digit of a version or an address may be any decimal digit of Unicode.  None of the characters that
are accepted means anything to a shell (`isInert_of_isValueChar`).
-/

namespace Habeny.Installers

open Habeny.Lib CodeText CodePattern PyRepr
open Habeny.Deploy.MemoryLimit (Unicode)

/-! ## Formats -/

variable (U : Unicode) (P : Printables)

/-- `[A-Za-z0-9]` -/
def isAlnum (c : ℕ) : Bool :=
  decide (48 ≤ c ∧ c ≤ 57 ∨ 65 ≤ c ∧ c ≤ 90 ∨ 97 ≤ c ∧ c ≤ 122)

/-- Letters, digits and some other characters. -/
def alnumOr (others : String) (c : ℕ) : Bool := isAlnum c || decide (c ∈ lit others)

/-- One character. -/
def char (c : Char) : CodePattern := one fun d => decide (d = c.toNat)

/-- From one character to another. -/
def range (first last : Char) : CodePattern :=
  one fun d => decide (first.toNat ≤ d ∧ d ≤ last.toNat)

/-- `\d` -/
def digit : CodePattern := one U.isDigit

/-- `[A-Za-z0-9]([A-Za-z0-9-]{0,61}[A-Za-z0-9])?` -/
def hostLabel : CodePattern :=
  seq (one isAlnum) (opt (seq (upTo (one (alnumOr "-")) 61) (one isAlnum)))

/-- `_HOST`, without the length that it looks ahead for. -/
def hostPattern : CodePattern := seq hostLabel (star (seq (char '.') hostLabel))

/-- `25[0-5]|2[0-4]\d|1?\d?\d` -/
def octet : CodePattern :=
  alt (seq (char '2') (seq (char '5') (range '0' '5')))
    (alt (seq (char '2') (seq (range '0' '4') (digit U)))
      (seq (opt (char '1')) (seq (opt (digit U)) (digit U))))

/-- `_IPV4` -/
def ipv4Pattern : CodePattern := seq (octet U) (between (seq (char '.') (octet U)) 3 3)

/-- `_VERSION` -/
def versionPattern : CodePattern :=
  seq (between (digit U) 1 4) (seq (between (seq (char '.') (between (digit U) 1 4)) 1 3)
    (opt (seq (char '-') (between (one isAlnum) 1 16))))

/-- `_GROUP` -/
def groupPattern : CodePattern := seq (one isAlnum) (upTo (one (alnumOr "_.-")) 63)

/-- `_TOKEN` -/
def tokenPattern : CodePattern := seq (one isAlnum) (upTo (one (alnumOr "+/=_.:-")) 1023)

/-- `_CONTAINER` -/
def containerPattern : CodePattern := seq (one isAlnum) (upTo (one (alnumOr "_.-")) 63)

/-! ## The checks -/

/-- `repr` of a text or of none. -/
def valueRepr : Option CodeText → CodeText
  | none => lit "None"
  | some v => strRepr P v

/-- `_check` -/
def check (value : Option CodeText) (pattern : CodePattern) (what : String) :
    Except CodeText CodeText :=
  match value with
  | some v =>
    if pattern.fullmatch v then .ok v
    else .error (lit "Invalid " ++ lit what ++ lit ": " ++ valueRepr P value)
  | none => .error (lit "Invalid " ++ lit what ++ lit ": " ++ valueRepr P value)

/-- An address or a name of up to 253 characters. -/
def isHost (v : CodeText) : Bool :=
  (ipv4Pattern U).fullmatch v ||
    (decide (1 ≤ v.length ∧ v.length ≤ 253) && hostPattern.fullmatch v)

def validateHost (value : Option CodeText) : Except CodeText CodeText :=
  match value with
  | some v =>
    if isHost U v then .ok v
    else .error (lit "Invalid host (expected an IPv4 address or hostname): " ++ valueRepr P value)
  | none =>
    .error (lit "Invalid host (expected an IPv4 address or hostname): " ++ valueRepr P value)

def validateVersion (value : Option CodeText) : Except CodeText CodeText :=
  check P value (versionPattern U) "version (expected e.g. 4.14.2)"

def validateGroup (value : Option CodeText) : Except CodeText CodeText :=
  check P value groupPattern "group (letters, digits, '.', '_', '-')"

def validateToken (value : Option CodeText) : Except CodeText CodeText :=
  check P value tokenPattern "key/token (letters, digits and + / = _ . : -)"

def validateContainerName (value : Option CodeText) : Except CodeText CodeText :=
  check P value containerPattern "container name"

/-! ## What is accepted -/

variable {U P} {value : Option CodeText} {v : CodeText} {c : ℕ}

lemma check_eq_ok {pattern : CodePattern} {what : String}
    (h : check P value pattern what = .ok v) :
    value = some v ∧ pattern.fullmatch v = true := by
  cases value with
  | none => cases h
  | some w =>
    rw [check] at h
    split_ifs at h with hmatch
    obtain rfl := Except.ok.inj h
    exact ⟨rfl, hmatch⟩

lemma validateHost_eq_ok (h : validateHost U P value = .ok v) :
    value = some v ∧ isHost U v = true := by
  cases value with
  | none => cases h
  | some w =>
    rw [validateHost] at h
    split_ifs at h with hmatch
    obtain rfl := Except.ok.inj h
    exact ⟨rfl, hmatch⟩

/-- The characters of values: letters, digits and some others, and the decimal digits of Unicode. -/
def isValueChar (U : Unicode) (others : CodeText) (c : ℕ) : Bool :=
  isAlnum c || decide (c ∈ others) || U.isDigit c

/-- The others of all values together. -/
def allOthers : CodeText := lit "+/=_.:-"

variable {others others' : CodeText}

lemma isValueChar_iff :
    isValueChar U others c = true ↔ isAlnum c = true ∨ c ∈ others ∨ U.isDigit c = true := by
  rw [isValueChar, Bool.or_eq_true, Bool.or_eq_true, decide_eq_true_eq, or_assoc]

lemma isValueChar_mono (hothers : ∀ d ∈ others, d ∈ others') (h : isValueChar U others c = true) :
    isValueChar U others' c = true := by
  rw [isValueChar_iff] at h ⊢
  exact h.imp_right (Or.imp_left (hothers c))

/-- No other characters of ASCII are accepted. -/
lemma isValueChar_ascii (h : isValueChar U others c = true) (hc : c < 128) :
    isAlnum c = true ∨ c ∈ others := by
  obtain h | h | h := isValueChar_iff.mp h
  · exact .inl h
  · exact .inr h
  · rw [Unicode.isDigit, U.digit_ascii c hc] at h
    split_ifs at h with hdigit
    · exact .inl (decide_eq_true (.inl hdigit))
    · cases h

/-- **No character of a value means anything to a shell.** -/
theorem isInert_of_isValueChar (h : isValueChar U allOthers c = true) :
    Shell.isInert c = true := by
  have hascii : ∀ d ∈ Shell.meaningful, d < 128 ∧ isAlnum d = false ∧ d ∉ allOthers := by decide
  refine decide_eq_true fun hc => ?_
  obtain ⟨hlt, halnum, hothers⟩ := hascii c hc
  obtain h | h := isValueChar_ascii h hlt
  · rw [halnum] at h
    cases h
  · exact hothers h

/-! ## The characters of each format -/

/-- The other characters of hosts and versions. -/
def hostOthers : CodeText := lit ".-"

/-- The other characters of groups and containers. -/
def nameOthers : CodeText := lit "_.-"

lemma isValueChar_of_isAlnum (h : isAlnum c = true) : isValueChar U others c = true :=
  isValueChar_iff.mpr (.inl h)

lemma isValueChar_of_alnumOr {s : String} (h : alnumOr s c = true) :
    isValueChar U (lit s) c = true := by
  rw [alnumOr, Bool.or_eq_true, decide_eq_true_eq] at h
  exact isValueChar_iff.mpr (h.imp_right .inl)

lemma allows_hostLabel (h : hostLabel.allows c = true) : isValueChar U hostOthers c = true := by
  simp only [hostLabel, opt, allows, Bool.or_eq_true] at h
  obtain h | h | h := h
  · exact isValueChar_of_isAlnum h
  · exact isValueChar_mono (by decide) (isValueChar_of_alnumOr h)
  · exact isValueChar_of_isAlnum h

lemma allows_char {d : Char} (hd : d.toNat ∈ others) (h : (char d).allows c = true) :
    isValueChar U others c = true := by
  obtain rfl : c = d.toNat := of_decide_eq_true h
  exact isValueChar_iff.mpr (.inr (.inl hd))

lemma allows_digit (h : (digit U).allows c = true) : isValueChar U others c = true :=
  isValueChar_iff.mpr (.inr (.inr h))

lemma allows_range {first last : Char} (hfirst : 48 ≤ first.toNat) (hlast : last.toNat ≤ 57)
    (h : (range first last).allows c = true) : isValueChar U others c = true := by
  have hc : first.toNat ≤ c ∧ c ≤ last.toNat := of_decide_eq_true h
  refine isValueChar_of_isAlnum (decide_eq_true (.inl ⟨?_, ?_⟩))
  · omega
  · omega

lemma allows_between {a : CodePattern} : ∀ {lo hi : ℕ}, (a.between lo hi).allows c = true →
    a.allows c = true
  | 0, _, h => h
  | lo + 1, hi, h => by
    rw [between, allows, Bool.or_eq_true] at h
    obtain h | h := h
    · exact h
    · exact allows_between h

lemma allows_octet (h : (octet U).allows c = true) : isValueChar U others c = true := by
  have hone : ∀ d ∈ ['1', '2', '5'], (char d).allows c = true → isValueChar U others c = true := by
    intro d hd h
    have hdigit : d.toNat = c := (of_decide_eq_true h).symm
    refine isValueChar_of_isAlnum (hdigit ▸ ?_)
    simp only [List.mem_cons, List.not_mem_nil, or_false] at hd
    obtain rfl | rfl | rfl := hd <;> decide
  simp only [octet, opt, allows, Bool.or_eq_true] at h
  obtain (h | h | h) | (h | h | h) | h | h | h := h
  · exact hone '2' (by decide) h
  · exact hone '5' (by decide) h
  · exact allows_range (by decide) (by decide) h
  · exact hone '2' (by decide) h
  · exact allows_range (by decide) (by decide) h
  · exact allows_digit h
  · exact hone '1' (by decide) h
  · exact allows_digit h
  · exact allows_digit h

lemma isValueChar_of_isHost (h : isHost U v = true) :
    ∀ c ∈ v, isValueChar U hostOthers c = true := by
  intro c hc
  rw [isHost, Bool.or_eq_true, Bool.and_eq_true] at h
  obtain h | ⟨-, h⟩ := h
  · have hallows := allowed_of_fullmatch h c hc
    rw [ipv4Pattern, allows, Bool.or_eq_true] at hallows
    obtain hallows | hallows := hallows
    · exact allows_octet hallows
    · have hgroup := allows_between hallows
      rw [allows, Bool.or_eq_true] at hgroup
      exact hgroup.elim (allows_char (by decide)) allows_octet
  · have hallows := allowed_of_fullmatch h c hc
    simp only [hostPattern, allows, Bool.or_eq_true] at hallows
    obtain h | h | h := hallows
    · exact allows_hostLabel h
    · exact allows_char (by decide) h
    · exact allows_hostLabel h

lemma isValueChar_of_version (h : (versionPattern U).fullmatch v = true) :
    ∀ c ∈ v, isValueChar U hostOthers c = true := by
  intro c hc
  have hallows := allowed_of_fullmatch h c hc
  rw [versionPattern, allows, allows, opt, allows, allows, Bool.or_eq_true, Bool.or_eq_true,
    Bool.or_eq_true] at hallows
  obtain h | h | h | h := hallows
  · exact allows_digit (allows_between h)
  · have hgroup := allows_between h
    rw [allows, Bool.or_eq_true] at hgroup
    exact hgroup.elim (allows_char (by decide)) fun h => allows_digit (allows_between h)
  · exact allows_char (by decide) h
  · exact isValueChar_of_isAlnum (allows_between h)

/-- One first character and some others: the form of groups, containers and tokens. -/
lemma isValueChar_of_first {s : String} {n : ℕ}
    (h : (seq (one isAlnum) (upTo (one (alnumOr s)) n)).fullmatch v = true) :
    ∀ c ∈ v, isValueChar U (lit s) c = true := by
  intro c hc
  have hallows := allowed_of_fullmatch h c hc
  rw [allows, allows, allows, allows, Bool.or_eq_true] at hallows
  exact hallows.elim isValueChar_of_isAlnum isValueChar_of_alnumOr

end Habeny.Installers
