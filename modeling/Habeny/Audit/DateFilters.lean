import Habeny.Audit.Log
import Habeny.Lib.IsoTime

/-!
# Searching the audit log by dates

The bounds of a search are checked to be dates or times in any ISO form, and then compared, as they
were given, with the texts of the stored times.  The texts of the stored times are in the order of
the times (`UtcTime.strictMono_isoformat`), and so a bound selects by the instant that it means
exactly if its text comes just where the text of that instant does (`SinceExact`, `UntilExact`).
-/

namespace Habeny.Audit

open Habeny.Lib

/-! ## Dates of a request -/

/-- The number of instants. -/
def allMicros : ℕ := daysBeforeYear 10000 * microsPerDay

/-- How ISO texts are read. -/
structure DateReader where
  /-- `datetime.fromisoformat`, in microseconds since the begin of the year 1; a time without an
  offset is in UTC. -/
  datetime : Text → Option ℤ
  /-- `date.fromisoformat`, as the number of days before the date. -/
  date : Text → Option ℕ

/-- `value.replace("Z", "+00:00")` -/
def replaceZ (value : Text) : Text :=
  value.flatMap fun c => if c = 'Z' then ['+', '0', '0', ':', '0', '0'] else [c]

/-- A value that the check of the route accepts, and the instant that it means. -/
structure DateValue (r : DateReader) where
  text : Text
  instant : ℤ
  ne_nil : text ≠ []
  accepted : r.datetime (replaceZ text) = some instant

/-- `_date`: nothing is no bound, and what cannot be read is refused. -/
def dateParam (r : DateReader) (value : Option Text) : Option (Option (DateValue r)) :=
  match value with
  | none => some none
  | some text =>
    if hnil : text = [] then some none
    else
      match haccepted : r.datetime (replaceZ text) with
      | some instant => some (some ⟨text, instant, hnil, haccepted⟩)
      | none => none

/-- Every value that can be read passes the check as it is. -/
lemma dateParam_text {r : DateReader} (v : DateValue r) :
    dateParam r (some v.text) = some (some v) := by
  unfold dateParam
  simp only [dif_neg v.ne_nil]
  split
  · next instant hinstant =>
    have heq : instant = v.instant := Option.some.inj (hinstant.symm.trans v.accepted)
    subst heq
    rfl
  · next hnone => exact absurd (hnone.symm.trans v.accepted) (Option.some_ne_none _).symm

/-! ## The filters -/

variable {r : DateReader}

/-- The text of a day. -/
def dayText (day : ℕ) (h : day * microsPerDay < allMicros) : Text :=
  (UtcTime.isoformat ⟨day * microsPerDay, h⟩).take 10

/-- `_next_day`, which raises for what is no date, and for the last day -/
def nextDay (r : DateReader) (text : Text) : Option Text :=
  (r.date text).bind fun day =>
    if h : (day + 1) * microsPerDay < allMicros then some (dayText (day + 1) h) else none

/-- `ts >= ?` -/
def keepsSince (since : Option (DateValue r)) (ts : Text) : Bool :=
  since.all fun v => decide (v.text ≤ ts)

/-- `ts < ?` for a value of ten characters, and `ts <= ?` for others -/
def keepsUntil (until' : Option (DateValue r)) : Option (Text → Bool) :=
  match until' with
  | none => some fun _ => true
  | some v =>
    if v.text.length = 10 then (nextDay r v.text).map fun next ts => decide (ts < next)
    else some fun ts => decide (ts ≤ v.text)

/-- The clauses of `Filters.where` about the time. -/
def whereTime (since until' : Option (DateValue r)) : Option (Text → Bool) :=
  (keepsUntil until').map fun keeps ts => keepsSince since ts && keeps ts

/-- `query`: a page of the matching entries, the newest first, and how many match. -/
def query (since until' : Option (DateValue r)) (offset limit : ℕ) (log : List Entry) :
    Option (List Entry × ℕ) :=
  (whereTime since until').map fun keeps =>
    (((log.filter fun e => keeps e.ts).reverse.drop offset).take limit,
      (log.filter fun e => keeps e.ts).length)

/-- The entries that `export` writes. -/
def exported (since until' : Option (DateValue r)) (log : List Entry) : Option (List Entry) :=
  (whereTime since until').map fun keeps => log.filter fun e => keeps e.ts

/-! ## What the bounds mean -/

/-- An entry whose time was written by `utc_now().isoformat()`. -/
structure Stored where
  entry : Entry
  time : UtcTime
  written : entry.ts = time.isoformat

/-- The end of what an upper bound includes: of the whole day for a date. -/
def DateValue.stop (v : DateValue r) : ℤ :=
  match r.date v.text with
  | some day => (day + 1) * microsPerDay
  | none => v.instant + 1

/-- An instant lies within the bounds. -/
def InBounds (since until' : Option (DateValue r)) (t : UtcTime) : Prop :=
  (∀ v ∈ since, v.instant ≤ t.val) ∧ ∀ v ∈ until', (t.val : ℤ) < v.stop

instance (since until' : Option (DateValue r)) (t : UtcTime) :
    Decidable (InBounds since until' t) := inferInstanceAs (Decidable (_ ∧ _))

/-- The listing and the export have exactly the entries whose instant lies within the bounds,
whatever is stored and whatever page is asked for. -/
def SelectsByInstant (since until' : Option (DateValue r)) : Prop :=
  ∀ (log : List Stored) (offset limit : ℕ),
    let found := (log.filter fun x => decide (InBounds since until' x.time)).map Stored.entry
    query since until' offset limit (log.map Stored.entry) =
        some ((found.reverse.drop offset).take limit, found.length) ∧
      exported since until' (log.map Stored.entry) = some found

/-! ## When they do -/

/-- The first instant from `t` on. -/
def firstFrom (t : ℤ) : Option UtcTime :=
  if h : t.toNat < allMicros then some ⟨t.toNat, h⟩ else none

/-- The last instant before `t`. -/
def lastBefore (t : ℤ) : Option UtcTime :=
  if h : 0 < t ∧ min (t - 1).toNat (allMicros - 1) < allMicros then
    some ⟨min (t - 1).toNat (allMicros - 1), h.2⟩
  else none

/-- The text of a lower bound comes after that of the last instant before it, and not after that of
the first instant from it on. -/
def SinceExact (v : DateValue r) : Prop :=
  (∀ t ∈ firstFrom v.instant, v.text ≤ t.isoformat) ∧
    ∀ t ∈ lastBefore v.instant, t.isoformat < v.text

/-- The text of an upper bound keeps the last instant before its end, and not the first after it. -/
def UntilExact (v : DateValue r) (keeps : Text → Bool) : Prop :=
  (∀ t ∈ lastBefore v.stop, keeps t.isoformat = true) ∧
    ∀ t ∈ firstFrom v.stop, keeps t.isoformat = false

/-- An upper bound of ten characters is a date that has a next day, and the texts of both bounds
come where those of their instants do; or neither the bounds nor their texts leave anything. -/
def BoundsFit (since until' : Option (DateValue r)) : Prop :=
  ∃ keeps, keepsUntil until' = some keeps ∧
    (((∀ v ∈ since, SinceExact v) ∧ ∀ v ∈ until', UntilExact v keeps) ∨
      ((∀ t, ¬InBounds since until' t) ∧
        ∀ t : UtcTime, ¬(keepsSince since t.isoformat = true ∧ keeps t.isoformat = true)))

section Instants

variable {t : ℤ} {u : UtcTime}

lemma allMicros_pos : 0 < allMicros := by decide

lemma le_iff_firstFrom : t ≤ u.val ↔ ∃ first ∈ firstFrom t, first ≤ u := by
  have hu : u.val < allMicros := u.property
  unfold firstFrom
  split
  · next h =>
    constructor
    · intro hle
      refine ⟨_, rfl, ?_⟩
      show t.toNat ≤ u.val
      omega
    · rintro ⟨_, ⟨⟩, hle⟩
      have hle : t.toNat ≤ u.val := hle
      omega
  · next h =>
    constructor
    · intro hle
      omega
    · rintro ⟨_, ⟨⟩, -⟩

lemma lt_iff_lastBefore : (u.val : ℤ) < t ↔ ∃ last ∈ lastBefore t, u ≤ last := by
  have hu : u.val < allMicros := u.property
  have hpos := allMicros_pos
  unfold lastBefore
  split
  · next h =>
    constructor
    · intro hlt
      refine ⟨_, rfl, ?_⟩
      show u.val ≤ min (t - 1).toNat (allMicros - 1)
      omega
    · rintro ⟨_, ⟨⟩, hle⟩
      have hle : u.val ≤ min (t - 1).toNat (allMicros - 1) := hle
      omega
  · next h =>
    constructor
    · intro hlt
      omega
    · rintro ⟨_, ⟨⟩, -⟩

/-- What holds from some instant on holds from `t` on exactly if it does at the first instant from
`t` on, and not at the last one before. -/
lemma upward_iff {P : UtcTime → Prop} (hP : ∀ a b, a ≤ b → P a → P b) :
    (∀ u, P u ↔ t ≤ u.val) ↔ (∀ first ∈ firstFrom t, P first) ∧ ∀ last ∈ lastBefore t, ¬P last := by
  constructor
  · intro h
    refine ⟨fun first hfirst => ?_, fun last hlast hP => ?_⟩
    · exact (h first).mpr (le_iff_firstFrom.mpr ⟨first, hfirst, le_rfl⟩)
    · have hlt := lt_iff_lastBefore.mpr ⟨last, hlast, le_rfl⟩
      have hle := (h last).mp hP
      omega
  · rintro ⟨hfirst, hlast⟩ u
    constructor
    · intro hu
      by_contra hlt
      obtain ⟨last, hmem, hle⟩ := lt_iff_lastBefore.mp (Int.not_le.mp hlt)
      exact hlast last hmem (hP u last hle hu)
    · intro hle
      obtain ⟨first, hmem, hle⟩ := le_iff_firstFrom.mp hle
      exact hP first u hle (hfirst first hmem)

end Instants

section Bounds

variable {since until' : Option (DateValue r)} {keeps : Text → Bool}

/-- An upper bound keeps with a text every one before it. -/
lemma keepsUntil_anti (h : keepsUntil until' = some keeps) {a b : Text} (hle : a ≤ b)
    (hb : keeps b = true) : keeps a = true := by
  cases until' with
  | none =>
    cases h
    rfl
  | some v =>
    simp only [keepsUntil] at h
    split at h
    · obtain ⟨next, -, rfl⟩ := Option.map_eq_some_iff.mp h
      exact decide_eq_true (hle.trans_lt (of_decide_eq_true hb))
    · cases h
      exact decide_eq_true (hle.trans (of_decide_eq_true hb))

lemma keepsSince_mono {a b : Text} (hle : a ≤ b) (ha : keepsSince since a = true) :
    keepsSince since b = true := by
  cases since with
  | none => rfl
  | some v => exact decide_eq_true ((of_decide_eq_true ha).trans hle)

/-- A lower bound selects by the instant that it means exactly if it is exact. -/
lemma sinceExact_iff :
    (∀ v ∈ since, SinceExact v) ↔
      ∀ u : UtcTime, keepsSince since u.isoformat = true ↔ ∀ v ∈ since, v.instant ≤ u.val := by
  cases since with
  | none => simp [keepsSince]
  | some v =>
    have hP : ∀ a b : UtcTime, a ≤ b → v.text ≤ a.isoformat → v.text ≤ b.isoformat :=
      fun a b hle ha => ha.trans (UtcTime.isoformat_le_iff.mpr hle)
    have hup := upward_iff (t := v.instant) hP
    simp only [Option.mem_def, Option.some.injEq, forall_eq', keepsSince, Option.all_some,
      decide_eq_true_eq, SinceExact]
    rw [hup]
    simp only [not_le]
    rfl

/-- So does an upper bound. -/
lemma untilExact_iff (h : keepsUntil until' = some keeps) :
    (∀ v ∈ until', UntilExact v keeps) ↔
      ∀ u : UtcTime, keeps u.isoformat = true ↔ ∀ v ∈ until', (u.val : ℤ) < v.stop := by
  cases until' with
  | none =>
    cases h
    simp
  | some v =>
    have hP : ∀ a b : UtcTime, a ≤ b → ¬keeps a.isoformat = true → ¬keeps b.isoformat = true :=
      fun a b hle ha hb => ha (keepsUntil_anti h (UtcTime.isoformat_le_iff.mpr hle) hb)
    have hup := upward_iff (t := v.stop) hP
    have hflip : (∀ u : UtcTime, keeps u.isoformat = true ↔ (u.val : ℤ) < v.stop) ↔
        ∀ u : UtcTime, ¬keeps u.isoformat = true ↔ v.stop ≤ u.val := by
      refine forall_congr' fun u => ?_
      rw [← Int.not_lt]
      exact not_iff_not.symm
    simp only [Option.mem_def, Option.some.injEq, forall_eq', UntilExact]
    rw [hflip, hup]
    simp only [Option.mem_def, Bool.not_eq_true, Bool.not_eq_false]
    exact and_comm

/-- **The bounds select by instants exactly if they fit.** -/
lemma boundsFit_iff :
    BoundsFit since until' ↔ ∃ keeps, keepsUntil until' = some keeps ∧ ∀ u : UtcTime,
      (keepsSince since u.isoformat = true ∧ keeps u.isoformat = true) ↔
        InBounds since until' u := by
  refine exists_congr fun keeps => and_congr_right fun h => ?_
  rw [sinceExact_iff, untilExact_iff h]
  constructor
  · rintro (⟨hsince, huntil⟩ | ⟨hnone, hnothing⟩) u
    · exact and_congr (hsince u) (huntil u)
    · exact iff_of_false (hnothing u) (hnone u)
  · intro hall
    by_cases hnone : ∀ u, ¬InBounds since until' u
    · exact Or.inr ⟨hnone, fun u hu => hnone u ((hall u).mp hu)⟩
    · -- an instant within the bounds tells the two bounds apart
      left
      push Not at hnone
      obtain ⟨w, hw⟩ := hnone
      have hkept := (hall w).mpr hw
      constructor
      · intro u
        rcases le_total u w with hle | hle
        · have huntil : keeps u.isoformat = true :=
            keepsUntil_anti h (UtcTime.isoformat_le_iff.mpr hle) hkept.2
          have hstop : ∀ v ∈ until', (u.val : ℤ) < v.stop := by
            intro v hv
            have hlt := hw.2 v hv
            have hle : u.val ≤ w.val := hle
            omega
          constructor
          · intro hsince
            exact ((hall u).mp ⟨hsince, huntil⟩).1
          · intro hsince
            exact ((hall u).mpr ⟨hsince, hstop⟩).1
        · refine iff_of_true (keepsSince_mono (UtcTime.isoformat_le_iff.mpr hle) hkept.1) ?_
          intro v hv
          have hlt := hw.1 v hv
          have hle : w.val ≤ u.val := hle
          omega
      · intro u
        rcases le_total w u with hle | hle
        · have hsince : keepsSince since u.isoformat = true :=
            keepsSince_mono (UtcTime.isoformat_le_iff.mpr hle) hkept.1
          have hinstant : ∀ v ∈ since, v.instant ≤ u.val := by
            intro v hv
            have hlt := hw.1 v hv
            have hle : w.val ≤ u.val := hle
            omega
          constructor
          · intro huntil
            exact ((hall u).mp ⟨hsince, huntil⟩).2
          · intro huntil
            exact ((hall u).mpr ⟨hinstant, huntil⟩).2
        · refine iff_of_true (keepsUntil_anti h (UtcTime.isoformat_le_iff.mpr hle) hkept.2) ?_
          intro v hv
          have hlt := hw.2 v hv
          have hle : u.val ≤ w.val := hle
          omega

end Bounds

/-- An entry of some time. -/
def storedAt (t : UtcTime) : Stored where
  entry :=
    { id := 1, ts := t.isoformat, action := [], status := [], user := none, token := none,
      ip := none, requestId := none, details := [], prevHash := [], hash := [] }
  time := t
  written := rfl

/-- **The filters select by instants exactly if the bounds fit.** -/
theorem filters_select_iff (since until' : Option (DateValue r)) :
    SelectsByInstant since until' ↔ BoundsFit since until' := by
  rw [boundsFit_iff]
  constructor
  · intro h
    obtain ⟨keeps, hkeeps⟩ : ∃ keeps, keepsUntil until' = some keeps := by
      obtain ⟨both, hboth, -⟩ := Option.map_eq_some_iff.mp (h [] 0 0).2
      obtain ⟨keeps, hkeeps, -⟩ := Option.map_eq_some_iff.mp hboth
      exact ⟨keeps, hkeeps⟩
    refine ⟨keeps, hkeeps, fun u => ?_⟩
    -- the log that has one entry, of this instant
    have hone := (h [storedAt u] 0 0).2
    rw [exported, whereTime, hkeeps] at hone
    simp only [Option.map_some, Option.some.injEq, List.map_cons, List.map_nil] at hone
    have hts : (storedAt u).entry.ts = u.isoformat := rfl
    have hdecide : decide (InBounds since until' (storedAt u).time) =
        decide (InBounds since until' u) := rfl
    by_cases hin : InBounds since until' u <;>
      by_cases hkept : (keepsSince since u.isoformat && keeps u.isoformat) = true
    · exact iff_of_true (by simpa using hkept) hin
    · rw [List.filter_cons_of_neg (by rwa [hts]),
        List.filter_cons_of_pos (by simpa [hdecide])] at hone
      cases hone
    · rw [List.filter_cons_of_pos (by rwa [hts]),
        List.filter_cons_of_neg (by simpa [hdecide])] at hone
      cases hone
    · exact iff_of_false (by simpa using hkept) hin
  · rintro ⟨keeps, hkeeps, hall⟩ log offset limit
    have hfilter : (log.map Stored.entry).filter (fun e => keepsSince since e.ts && keeps e.ts) =
        (log.filter fun x => decide (InBounds since until' x.time)).map Stored.entry := by
      rw [List.filter_map]
      refine congrArg (List.map Stored.entry) (List.filter_congr fun x _ => ?_)
      rw [Function.comp_apply, x.written, Bool.eq_iff_iff, Bool.and_eq_true, decide_eq_true_eq]
      exact hall x.time
    constructor
    · rw [query, whereTime, hkeeps]
      simp only [Option.map_some, hfilter]
    · rw [exported, whereTime, hkeeps]
      simp only [Option.map_some, hfilter]

/-! ## A bound with an offset -/

/-- Noon in a zone five hours ahead. -/
def noonAhead : Text := "2026-01-01T12:00:00+05:00".toList

/-- Reads the one time, which is seven o'clock in UTC. -/
def readNoon : DateReader where
  datetime := fun t => if t = noonAhead then some (739616 * 86400000000 + 7 * 3600000000) else none
  date := fun _ => none

lemma noonAhead_ne_nil : noonAhead ≠ [] := by decide

lemma readNoon_noonAhead :
    readNoon.datetime (replaceZ noonAhead) = some (739616 * 86400000000 + 7 * 3600000000) := by
  have hplain : replaceZ noonAhead = noonAhead := by decide +kernel
  rw [hplain]
  simp only [readNoon, if_true]

def sinceNoon : DateValue readNoon where
  text := noonAhead
  instant := 739616 * 86400000000 + 7 * 3600000000
  ne_nil := noonAhead_ne_nil
  accepted := readNoon_noonAhead

lemma eight_lt : 739616 * 86400000000 + 8 * 3600000000 < allMicros := by decide

/-- Eight o'clock in UTC on that day. -/
def eightUtc : UtcTime := ⟨739616 * 86400000000 + 8 * 3600000000, eight_lt⟩

/-- An entry of an hour later is not found. -/
theorem since_offset_misses : ¬SelectsByInstant (some sinceNoon) none := by
  intro h
  have hone := (h [storedAt eightUtc] 0 0).2
  have hts : eightUtc.isoformat < noonAhead := by decide +kernel
  have hkept : keepsSince (some sinceNoon) (storedAt eightUtc).entry.ts = false := by
    have htext : sinceNoon.text = noonAhead := rfl
    rw [keepsSince, Option.all_some, htext, storedAt]
    exact decide_eq_false (not_le.mpr hts)
  have hin : InBounds (some sinceNoon) none (storedAt eightUtc).time := by
    have htime : (storedAt eightUtc).time.val = 739616 * 86400000000 + 8 * 3600000000 := rfl
    refine ⟨fun v hv => ?_, fun v hv => by cases hv⟩
    have hinstant : sinceNoon.instant = 739616 * 86400000000 + 7 * 3600000000 := rfl
    rw [htime, ← Option.some.inj hv, hinstant]
    omega
  simp [exported, whereTime, keepsUntil, hkept, hin] at hone

end Habeny.Audit
