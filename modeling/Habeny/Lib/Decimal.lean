import Habeny.Lib.Lines
import Mathlib.Data.Nat.Basic

/-!
# Decimal numbers as texts

The digits of a number, and its digits with a zero before a single one (the format `02d`).  Both
give different numbers different texts.
-/

namespace Habeny.Lib.CodeText

/-- `str` of a number that is not negative -/
def decimal (n : ℕ) : CodeText := (Nat.toDigits 10 n).map Char.toNat

/-- The format `02d` -/
def decimal2 (n : ℕ) : CodeText := if n < 10 then 48 :: decimal n else decimal n

/-- The number that digits stand for. -/
def digitsValue (t : CodeText) : ℕ := Nat.ofDigitChars 10 (t.map Char.ofNat) 0

lemma digitsValue_decimal (n : ℕ) : digitsValue (decimal n) = n := by
  have hchars : (decimal n).map Char.ofNat = Nat.toDigits 10 n := by
    rw [decimal, List.map_map]
    exact List.map_id'' Char.ofNat_toNat _
  rw [digitsValue, hchars, Nat.ofDigitChars_ten_toDigits]

lemma digitsValue_decimal2 (n : ℕ) : digitsValue (decimal2 n) = n := by
  rw [decimal2]
  split_ifs
  · exact digitsValue_decimal n
  · exact digitsValue_decimal n

lemma decimal_injective : Function.Injective decimal :=
  Function.LeftInverse.injective digitsValue_decimal

lemma decimal2_injective : Function.Injective decimal2 :=
  Function.LeftInverse.injective digitsValue_decimal2

/-- The characters are digits. -/
lemma mem_decimal {n c : ℕ} (hc : c ∈ decimal n) : 48 ≤ c ∧ c ≤ 57 := by
  obtain ⟨d, hd, rfl⟩ := List.mem_map.mp hc
  have hdigit := Nat.isDigit_of_mem_toDigits (by decide) (by decide) hd
  simp only [Char.isDigit, Bool.and_eq_true, decide_eq_true_eq, ge_iff_le,
    UInt32.le_iff_toNat_le] at hdigit
  exact hdigit

lemma mem_decimal2 {n c : ℕ} (hc : c ∈ decimal2 n) : 48 ≤ c ∧ c ≤ 57 := by
  rw [decimal2] at hc
  split_ifs at hc
  · obtain rfl | hc := List.mem_cons.mp hc
    · omega
    · exact mem_decimal hc
  · exact mem_decimal hc

end Habeny.Lib.CodeText
