import Habeny.Lib.Text
import Mathlib.Algebra.GroupWithZero.Nat
import Mathlib.Data.Char
import Mathlib.Data.List.Lex
import Mathlib.Data.Nat.Find
import Mathlib.Order.Lattice
import Mathlib.Order.Monotone.Basic

/-!
# Instants and their texts

An instant of the years 1 to 9999 is a number of microseconds.  Its text has four digits for the
year, two for each smaller unit and six for the microseconds, which are left out with their point
when there are none, and at the end the offset of UTC.

The texts are ordered as the instants are (`isoformat_lt_iff`): every unit has a fixed width, so
the first that differs decides, and where only one text has a fraction, `+` is less than `.`.
-/

namespace Habeny.Lib

/-! ## Numbers of a fixed width -/

/-- The last `w` decimal digits of a number. -/
def padded : ℕ → ℕ → Text
  | 0, _ => []
  | w + 1, n => padded w (n / 10) ++ [Nat.digitChar (n % 10)]

lemma length_padded (w n : ℕ) : (padded w n).length = w := by
  induction w generalizing n with
  | zero => rfl
  | succ w ih => rw [padded, List.length_append, ih, List.length_singleton]

lemma digitChar_lt_iff {x y : ℕ} (hx : x < 10) (hy : y < 10) :
    Nat.digitChar x < Nat.digitChar y ↔ x < y := by
  have hall : ∀ x < 10, ∀ y < 10, (Nat.digitChar x < Nat.digitChar y ↔ x < y) := by decide
  exact hall x hx y hy

lemma digitChar_inj {x y : ℕ} (hx : x < 10) (hy : y < 10) :
    Nat.digitChar x = Nat.digitChar y ↔ x = y := by
  have hall : ∀ x < 10, ∀ y < 10, (Nat.digitChar x = Nat.digitChar y ↔ x = y) := by decide
  exact hall x hx y hy

/-- Of two texts that begin with numbers of one width the numbers decide first. -/
lemma padded_append_lt_iff {w a b : ℕ} {s t : Text} (ha : a < 10 ^ w) (hb : b < 10 ^ w) :
    padded w a ++ s < padded w b ++ t ↔ a < b ∨ a = b ∧ s < t := by
  induction w generalizing a b s t with
  | zero =>
    have hzero : a = 0 ∧ b = 0 := by omega
    simp [padded, hzero]
  | succ w ih =>
    have ha' : a / 10 < 10 ^ w := by omega
    have hb' : b / 10 < 10 ^ w := by omega
    have ha10 : a % 10 < 10 := Nat.mod_lt a (by omega)
    have hb10 : b % 10 < 10 := Nat.mod_lt b (by omega)
    rw [padded, padded, List.append_assoc, List.append_assoc, ih ha' hb', List.singleton_append,
      List.singleton_append, List.cons_lt_cons_iff, digitChar_lt_iff ha10 hb10,
      digitChar_inj ha10 hb10]
    constructor
    · rintro (hlt | ⟨heq, hlt | ⟨heq', hst⟩⟩)
      · exact .inl (by omega)
      · exact .inl (by omega)
      · exact .inr ⟨by omega, hst⟩
    · rintro (hlt | ⟨rfl, hst⟩)
      · by_cases heq : a / 10 = b / 10
        · exact .inr ⟨heq, .inl (by omega)⟩
        · exact .inl (by omega)
      · exact .inr ⟨rfl, .inr ⟨rfl, hst⟩⟩

/-! ## Blocks

Numbers are cut into blocks, of which each begins where a function says; the years cut the days so,
and the months the days of a year. -/

/-- The last of the blocks up to a bound that begins at a number or before it. -/
def block (start : ℕ → ℕ) (bound n : ℕ) : ℕ := Nat.findGreatest (fun k => start k ≤ n) bound

section Blocks

variable {start : ℕ → ℕ} {bound n a b k : ℕ}

lemma block_le : block start bound n ≤ bound := Nat.findGreatest_le _

lemma start_block_le (h : start 0 = 0) : start (block start bound n) ≤ n :=
  Nat.findGreatest_spec (P := fun k => start k ≤ n) (Nat.zero_le bound) (by omega)

lemma le_block (hk : start k ≤ n) (hbound : k ≤ bound) : k ≤ block start bound n :=
  Nat.le_findGreatest hbound hk

lemma lt_start_of_block_lt (hk : block start bound n < k) (hbound : k ≤ bound) : n < start k :=
  not_le.mp fun hle => absurd (le_block hle hbound) (not_le.mpr hk)

/-- Numbers are in the order of their blocks, and in a block in that of the distances from its
begin. -/
lemma lt_iff_block (h : start 0 = 0) : a < b ↔ block start bound a < block start bound b ∨
    block start bound a = block start bound b ∧
      a - start (block start bound a) < b - start (block start bound b) := by
  have ha : start (block start bound a) ≤ a := start_block_le h
  have hb : start (block start bound b) ≤ b := start_block_le h
  rcases lt_trichotomy (block start bound a) (block start bound b) with hlt | heq | hgt
  · have hbefore := lt_start_of_block_lt hlt block_le
    exact ⟨fun _ => .inl hlt, fun _ => by omega⟩
  · rw [heq] at ha ⊢
    omega
  · have hafter := lt_start_of_block_lt hgt block_le
    omega

/-- The same for blocks of one length. -/
lemma lt_iff_div_mod (k m n : ℕ) : m < n ↔ m / k < n / k ∨ m / k = n / k ∧ m % k < n % k := by
  have hm := Nat.div_add_mod m k
  have hn := Nat.div_add_mod n k
  constructor
  · intro hlt
    rcases (Nat.div_le_div_right (c := k) hlt.le).lt_or_eq with hdiv | hdiv
    · exact .inl hdiv
    · rw [← hdiv] at hn
      exact .inr ⟨hdiv, by omega⟩
  · rintro (hdiv | ⟨hdiv, hmod⟩)
    · exact lt_of_not_ge fun hle => absurd (Nat.div_le_div_right (c := k) hle) (not_le.mpr hdiv)
    · rw [← hdiv] at hn
      omega

lemma lt_or_eq_iff_div_mod (k : ℕ) {m n : ℕ} {P : Prop} : m < n ∨ m = n ∧ P ↔
    m / k < n / k ∨ m / k = n / k ∧ (m % k < n % k ∨ m % k = n % k ∧ P) := by
  have heq : m = n ↔ m / k = n / k ∧ m % k = n % k :=
    ⟨fun h => by rw [h]; exact ⟨rfl, rfl⟩, fun h => by
      rw [← Nat.div_add_mod m k, h.1, h.2, Nat.div_add_mod]⟩
  rw [lt_iff_div_mod k m n, heq]
  tauto

end Blocks

/-! ## The calendar -/

def isLeap (year : ℕ) : Bool := year % 4 == 0 && (year % 100 != 0 || year % 400 == 0)

/-- The days before the first of January of a year. -/
def daysBeforeYear (year : ℕ) : ℕ :=
  (year - 1) * 365 + (year - 1) / 4 - (year - 1) / 100 + (year - 1) / 400

/-- The days of a year before the first of a month. -/
def daysBeforeMonth (leap : Bool) (month : ℕ) : ℕ :=
  [0, 0, 31, 59, 90, 120, 151, 181, 212, 243, 273, 304, 334].getD month 365 +
    if 2 < month && leap then 1 else 0

lemma isLeap_iff {year : ℕ} : isLeap year = true ↔ 4 ∣ year ∧ (¬100 ∣ year ∨ 400 ∣ year) := by
  simp [isLeap, Nat.dvd_iff_mod_eq_zero]

lemma daysBeforeYear_succ {year : ℕ} (h : 1 ≤ year) :
    daysBeforeYear (year + 1) = daysBeforeYear year + daysBeforeMonth (isLeap year) 13 := by
  obtain ⟨past, rfl⟩ : ∃ past, year = past + 1 := ⟨year - 1, by omega⟩
  have hcentury : past / 100 ≤ past / 4 := Nat.div_le_div_left (by omega) (by omega)
  have hdays : daysBeforeMonth (isLeap (past + 1)) 13 =
      365 + if isLeap (past + 1) = true then 1 else 0 := by
    cases isLeap (past + 1) <;> rfl
  have h4 : 100 ∣ past + 1 → 4 ∣ past + 1 := Nat.dvd_trans (by decide)
  have h100 : 400 ∣ past + 1 → 100 ∣ past + 1 := Nat.dvd_trans (by decide)
  rw [hdays]
  simp only [daysBeforeYear, Nat.add_sub_cancel, Nat.succ_div, isLeap_iff]
  generalize past / 4 = q4, past / 100 = q100, past / 400 = q400 at *
  by_cases hd4 : 4 ∣ past + 1
  · by_cases hd100 : 100 ∣ past + 1
    · by_cases hd400 : 400 ∣ past + 1
      · simp only [hd4, hd100, hd400, if_true, not_true, or_true, and_true]
        omega
      · simp only [hd4, hd100, hd400, if_true, if_false, not_true, or_false, and_false]
        omega
    · have hd400 : ¬400 ∣ past + 1 := fun hdvd => hd100 (h100 hdvd)
      simp only [hd4, hd100, hd400, if_true, if_false, not_false_eq_true, or_false, and_true]
      omega
  · have hd100 : ¬100 ∣ past + 1 := fun hdvd => hd4 (h4 hdvd)
    have hd400 : ¬400 ∣ past + 1 := fun hdvd => hd100 (h100 hdvd)
    simp only [hd4, hd100, hd400, if_false, false_and]
    omega

/-- No month has more than 31 days. -/
lemma daysBeforeMonth_succ_le {leap : Bool} {month : ℕ} (h : month ≤ 12) :
    daysBeforeMonth leap (month + 1) ≤ daysBeforeMonth leap month + 31 := by
  have hall : ∀ leap : Bool, ∀ month < 13,
      daysBeforeMonth leap (month + 1) ≤ daysBeforeMonth leap month + 31 := by decide
  exact hall leap month (by omega)

/-! ## Instants -/

def microsPerDay : ℕ := 86400 * 1000000

/-- An instant up to the end of the year 9999, in microseconds since the begin of the year 1. -/
abbrev UtcTime := { micros : ℕ // micros < daysBeforeYear 10000 * microsPerDay }

namespace UtcTime

variable (t : UtcTime)

def microsecond : ℕ := t.val % 1000000

def second : ℕ := t.val / 1000000 % 60

def minute : ℕ := t.val / 1000000 / 60 % 60

def hour : ℕ := t.val / 1000000 / 60 / 60 % 24

/-- The days before this one, from the begin of the year 1. -/
def days : ℕ := t.val / 1000000 / 60 / 60 / 24

def year : ℕ := block daysBeforeYear 9999 t.days

/-- The days of the year before this one. -/
def yearDays : ℕ := t.days - daysBeforeYear t.year

def month : ℕ := block (daysBeforeMonth (isLeap t.year)) 12 t.yearDays

def day : ℕ := t.yearDays - daysBeforeMonth (isLeap t.year) t.month + 1

/-- The offset of UTC. -/
def utcOffset : Text := ['+', '0', '0', ':', '0', '0']

/-- The fraction of a second, nothing for a whole one. -/
def fraction : Text := if t.microsecond = 0 then [] else '.' :: padded 6 t.microsecond

/-- `datetime.isoformat` of a time in UTC -/
def isoformat : Text :=
  padded 4 t.year ++ '-' :: (padded 2 t.month ++ '-' :: (padded 2 t.day ++ 'T' ::
    (padded 2 t.hour ++ ':' :: (padded 2 t.minute ++ ':' :: (padded 2 t.second ++
      (t.fraction ++ utcOffset))))))

/-! ### Bounds -/

variable {t} {a b : UtcTime}

lemma one_le_year : 1 ≤ t.year := le_block (Nat.zero_le _) (by omega)

lemma yearDays_lt : t.yearDays < daysBeforeMonth (isLeap t.year) 13 := by
  have hbegin : daysBeforeYear t.year ≤ t.days := start_block_le rfl
  have hend : t.days < daysBeforeYear (t.year + 1) := by
    rcases Nat.lt_or_ge t.year 9999 with hlt | hge
    · exact lt_start_of_block_lt (Nat.lt_succ_self _) hlt
    · have hlast : t.year = 9999 := Nat.le_antisymm block_le hge
      have hval : t.val < 3652059 * 86400000000 := t.2
      have hyears : daysBeforeYear (9999 + 1) = 3652059 := rfl
      rw [hlast, hyears]
      unfold days
      omega
  rw [daysBeforeYear_succ one_le_year] at hend
  unfold yearDays
  omega

lemma day_lt : t.day < 10 ^ 2 := by
  have hend : t.yearDays < daysBeforeMonth (isLeap t.year) (t.month + 1) := by
    rcases Nat.lt_or_ge t.month 12 with hlt | hge
    · exact lt_start_of_block_lt (Nat.lt_succ_self _) hlt
    · have hlast : t.month = 12 := Nat.le_antisymm block_le hge
      rw [hlast]
      exact yearDays_lt
  have hmonth : daysBeforeMonth (isLeap t.year) (t.month + 1) ≤ _ + 31 :=
    daysBeforeMonth_succ_le block_le
  unfold day
  omega

lemma year_lt : t.year < 10 ^ 4 := Nat.lt_succ_of_le block_le

lemma month_lt : t.month < 10 ^ 2 :=
  Nat.lt_of_le_of_lt (@block_le (daysBeforeMonth (isLeap t.year)) 12 t.yearDays) (by omega)

lemma microsecond_lt : t.microsecond < 10 ^ 6 := Nat.mod_lt _ (by omega)

/-! ### Order -/

/-- A fraction is greater than none, as the point is greater than the sign of the offset. -/
lemma fraction_lt_iff : a.fraction ++ utcOffset < b.fraction ++ utcOffset ↔
    a.microsecond < b.microsecond := by
  have hsign : utcOffset = '+' :: ['0', '0', ':', '0', '0'] := rfl
  have hless : '+' < '.' ∧ ¬('.' < '+') ∧ '.' ≠ '+' := by decide
  unfold fraction
  by_cases ha : a.microsecond = 0
  · by_cases hb : b.microsecond = 0
    · rw [if_pos ha, if_pos hb, ha, hb]
      simp
    · rw [if_pos ha, if_neg hb, List.nil_append, List.cons_append, hsign, List.cons_lt_cons_iff]
      exact iff_of_true (.inl hless.1) (by omega)
  · by_cases hb : b.microsecond = 0
    · rw [if_neg ha, if_pos hb, List.nil_append, List.cons_append, hsign, List.cons_lt_cons_iff]
      refine iff_of_false ?_ (by omega)
      rintro (hlt | ⟨heq, -⟩)
      · exact hless.2.1 hlt
      · exact hless.2.2 heq
    · rw [if_neg ha, if_neg hb, List.cons_append, List.cons_append, List.cons_lt_cons_iff,
        padded_append_lt_iff microsecond_lt microsecond_lt]
      simp

/-- The day decides first, then the hour and each smaller unit. -/
lemma lt_iff_units : a < b ↔ a.days < b.days ∨ a.days = b.days ∧ (a.hour < b.hour ∨
    a.hour = b.hour ∧ (a.minute < b.minute ∨ a.minute = b.minute ∧ (a.second < b.second ∨
      a.second = b.second ∧ a.microsecond < b.microsecond))) := by
  have hmicros : a < b ↔ a.val / 1000000 < b.val / 1000000 ∨
      a.val / 1000000 = b.val / 1000000 ∧ a.microsecond < b.microsecond := lt_iff_div_mod _ _ _
  rw [hmicros, lt_or_eq_iff_div_mod 60, lt_or_eq_iff_div_mod 60, lt_or_eq_iff_div_mod 24]
  exact Iff.rfl

lemma days_eq_iff : a.days = b.days ↔ a.year = b.year ∧ a.month = b.month ∧ a.day = b.day := by
  have hyear : ∀ t : UtcTime, daysBeforeYear t.year ≤ t.days := fun t => start_block_le rfl
  have hmonth : ∀ t : UtcTime, daysBeforeMonth (isLeap t.year) t.month ≤ t.yearDays :=
    fun t => start_block_le rfl
  constructor
  · intro h
    unfold day month yearDays year
    rw [h]
    exact ⟨rfl, rfl, rfl⟩
  · rintro ⟨hy, hm, hd⟩
    have ha := hmonth a
    have hb := hmonth b
    have ha' := hyear a
    have hb' := hyear b
    unfold day at hd
    rw [hy, hm] at ha hd
    rw [hy] at ha'
    unfold yearDays at ha hb hd
    rw [hy] at ha hd
    omega

/-- Of the days the year decides first, then the month. -/
lemma days_lt_iff : a.days < b.days ↔ a.year < b.year ∨ a.year = b.year ∧
    (a.month < b.month ∨ a.month = b.month ∧ a.day < b.day) := by
  have hyear := @lt_iff_block daysBeforeYear 9999 a.days b.days rfl
  refine hyear.trans (or_congr_right (and_congr_right fun heq => ?_))
  have hsame : a.year = b.year := heq
  have hmonth : a.yearDays < b.yearDays ↔ a.month < b.month ∨ a.month = b.month ∧
      a.yearDays - daysBeforeMonth (isLeap a.year) a.month <
        b.yearDays - daysBeforeMonth (isLeap a.year) b.month := by
    unfold month
    rw [← hsame]
    exact lt_iff_block rfl
  refine hmonth.trans (or_congr_right (and_congr_right fun _ => ?_))
  unfold day
  rw [← hsame]
  omega

/-- **The texts are in the order of the instants.** -/
lemma isoformat_lt_iff : a.isoformat < b.isoformat ↔ a < b := by
  have hhour : ∀ t : UtcTime, t.hour < 10 ^ 2 := fun t => by unfold hour; omega
  have hminute : ∀ t : UtcTime, t.minute < 10 ^ 2 := fun t => by unfold minute; omega
  have hsecond : ∀ t : UtcTime, t.second < 10 ^ 2 := fun t => by unfold second; omega
  have hcons : ∀ (c : Char) (s t : Text), c :: s < c :: t ↔ s < t := by simp
  rw [isoformat, isoformat, padded_append_lt_iff year_lt year_lt, hcons,
    padded_append_lt_iff month_lt month_lt, hcons, padded_append_lt_iff day_lt day_lt, hcons,
    padded_append_lt_iff (hhour a) (hhour b), hcons,
    padded_append_lt_iff (hminute a) (hminute b), hcons,
    padded_append_lt_iff (hsecond a) (hsecond b), fraction_lt_iff, lt_iff_units, days_lt_iff,
    days_eq_iff]
  simp only [and_or_left, or_assoc, and_assoc]

lemma strictMono_isoformat : StrictMono isoformat := fun _ _ h => isoformat_lt_iff.mpr h

lemma isoformat_le_iff : a.isoformat ≤ b.isoformat ↔ a ≤ b := strictMono_isoformat.le_iff_le

/-- A length of time later, if that is still on the calendar (`datetime + timedelta`). -/
def plus (t : UtcTime) (delta : ℤ) : Option UtcTime :=
  if h : 0 ≤ t.val + delta ∧ (t.val + delta).toNat < daysBeforeYear 10000 * microsPerDay then
    some ⟨(t.val + delta).toNat, h.2⟩
  else none

lemma val_of_plus {delta : ℤ} (h : a.plus delta = some b) : (b.val : ℤ) = a.val + delta := by
  unfold plus at h
  split_ifs at h with hrange
  rw [Option.some.injEq] at h
  rw [← h]
  exact Int.toNat_of_nonneg hrange.1

end UtcTime

end Habeny.Lib
