import Habeny.Lib.LastWins
import Habeny.Lib.Lines
import Mathlib.Algebra.Order.Field.Rat
import Mathlib.Data.List.MinMax
import Mathlib.Tactic.Linarith
import Mathlib.Tactic.NormNum
import Mathlib.Tactic.Positivity

/-!
# What a SIEM detected

After an attack the SIEM is asked for the alerts of the target containers, and answers with a bucket
for each host name.  A bucket is joined with the last container that has its name up to case, and
what it says is assigned to that container's row: of several buckets the last one is left.

`counts_each_iff` says for which containers and buckets the rows are those that are meant, in
whatever order the buckets come.
-/

namespace Habeny.Simulations.Detection

open Habeny.Lib LastWins CodeText

/-! ## Buckets and rows -/

/-- The alerts of one host: their number, and for every rule when it fired first, if that can be
read.  There is one entry for each rule. -/
structure Bucket where
  key : CodeText
  docCount : ℕ
  rules : List (CodeText × Option ℤ)
  nodup : (rules.map Prod.fst).Nodup
  deriving DecidableEq

/-- The containers of a simulation. -/
structure Targets where
  names : List CodeText
  nodup : names.Nodup

structure Row where
  name : CodeText
  alerts : ℕ
  detected : Bool
  firstAlertAt : Option ℤ
  deriving DecidableEq

/-- What rounding to one decimal does to percentages. -/
structure Rounding where
  round : ℚ → ℚ
  mono : Monotone round
  zero : round 0 = 0
  hundred : round 100 = 100

structure Result where
  containers : ℕ
  detected : ℕ
  detectionRate : ℚ
  alerts : ℕ
  perContainer : List Row

/-- The rules that a profile should trigger. -/
def expectedRules (siem profileId : CodeText) : List CodeText :=
  let ids : List String :=
    if siem ≠ lit "wazuh" then []
    else if profileId = lit "auth_bruteforce" then ["5710", "5712"]
    else if profileId = lit "web_attacks" then ["31103", "31104", "31105"]
    else if profileId = lit "malware_beacon" then ["4101"]
    else if profileId = lit "lateral_movement" then ["5715", "5501"]
    else if profileId = lit "data_exfiltration" then ["5402"]
    else if profileId = lit "privilege_escalation" then ["5401", "5405", "5302"]
    else []
  ids.map lit

section Check

variable (lower : CodeText → CodeText) (expected : List CodeText)

/-- The container that a bucket is joined with: the last one with the same name up to case. -/
def wanted (containers : List CodeText) (key : CodeText) : Option CodeText :=
  (containers.foldl (fun found c => if lower c = lower key then some c else found) none).filter
    fun name => !name.isEmpty

/-- The times of the rules that count: the expected ones, or all if none are expected. -/
def relevant (b : Bucket) : List ℤ :=
  b.rules.filterMap fun r => if expected = [] ∨ r.1 ∈ expected then r.2 else none

/-- What a bucket assigns to its container's row. -/
def Row.assign (row : Row) (b : Bucket) : Row :=
  match (relevant expected b).min? with
  | none => { row with alerts := b.docCount }
  | some first =>
    { row with alerts := b.docCount, detected := true, firstAlertAt := some first }

/-- The rows before the first bucket. -/
def blank (name : CodeText) : Row :=
  { name := name, alerts := 0, detected := false, firstAlertAt := none }

/-- Join a bucket with its container. -/
def join (containers : List CodeText) (rows : CodeText → Row) (b : Bucket) : CodeText → Row :=
  match wanted lower containers b.key with
  | none => rows
  | some name => Function.update rows name ((rows name).assign expected b)

/-- The rows of the containers. -/
def tally (containers : List CodeText) (buckets : List Bucket) : CodeText → Row :=
  buckets.foldl (join lower expected containers) blank

def check (R : Rounding) (targets : Targets) (buckets : List Bucket) : Result :=
  let perContainer := targets.names.map (tally lower expected targets.names buckets)
  let detected := (perContainer.filter (·.detected)).length
  { containers := targets.names.length
    detected := detected
    detectionRate :=
      if targets.names = [] then 0 else R.round (100 * detected / targets.names.length)
    alerts := (perContainer.map (·.alerts)).sum
    perContainer := perContainer }

/-! ## What is meant -/

/-- The buckets of a container: their host's name is its name up to case. -/
def matching (name : CodeText) (buckets : List Bucket) : List Bucket :=
  buckets.filter fun b => decide (lower b.key = lower name)

/-- The times of all alerts of a container that count. -/
def alertTimes (name : CodeText) (buckets : List Bucket) : List ℤ :=
  (matching lower name buckets).flatMap (relevant expected)

/-- The row that a container should have. -/
def rowOf (buckets : List Bucket) (name : CodeText) : Row :=
  { name := name
    alerts := ((matching lower name buckets).map (·.docCount)).sum
    detected := !(alertTimes lower expected name buckets).isEmpty
    firstAlertAt := (alertTimes lower expected name buckets).min? }

/-- When a container gets its row.  If buckets are joined with it, there is only one of them, or they
have no alerts, and those that have times begin at the same; if they are joined with another
container, whose name differs in case only, they are empty. -/
def Joined (containers : List CodeText) (buckets : List Bucket) (name : CodeText) : Prop :=
  if wanted lower containers name = some name then
    ((matching lower name buckets).length ≤ 1 ∨
        ∀ b ∈ matching lower name buckets, b.docCount = 0) ∧
      ∀ b ∈ matching lower name buckets, ∀ b' ∈ matching lower name buckets,
        ∀ t ∈ (relevant expected b).min?, ∀ t' ∈ (relevant expected b').min?, t = t'
  else ∀ b ∈ matching lower name buckets, b.docCount = 0 ∧ relevant expected b = []

end Check

/-! ## Joining -/

section Joining

variable {lower : CodeText → CodeText} {expected : List CodeText} {containers : List CodeText}

/-- A bucket is joined with a container that has its name up to case. -/
lemma wanted_eq_some {key name : CodeText} (h : wanted lower containers key = some name) :
    name ∈ containers ∧ lower name = lower key := by
  have hfold : ∀ (cs : List CodeText) (found : Option CodeText),
      (∀ c ∈ found, c ∈ containers ∧ lower c = lower key) → cs ⊆ containers →
      ∀ c ∈ cs.foldl (fun found c => if lower c = lower key then some c else found) found,
        c ∈ containers ∧ lower c = lower key := by
    intro cs
    induction cs with
    | nil => exact fun _ hfound _ => hfound
    | cons c cs ih =>
      intro found hfound hsubset
      obtain ⟨hc, hsubset⟩ := List.cons_subset.mp hsubset
      refine ih _ (fun d hd => ?_) hsubset
      dsimp only at hd
      split_ifs at hd with hlower
      · cases hd
        exact ⟨hc, hlower⟩
      · exact hfound d hd
  exact hfold containers none (fun c hc => absurd hc (by simp)) (List.Subset.refl _) name
    (Option.filter_eq_some_iff.mp h).1

lemma wanted_congr {key key' : CodeText} (h : lower key = lower key') :
    wanted lower containers key = wanted lower containers key' := by
  rw [wanted, wanted, h]

lemma join_apply (rows : CodeText → Row) (b : Bucket) (name : CodeText) :
    join lower expected containers rows b name =
      if wanted lower containers b.key = some name then (rows name).assign expected b
      else rows name := by
  unfold join
  cases hwanted : wanted lower containers b.key with
  | none => rfl
  | some other =>
    by_cases hname : name = other
    · subst hname
      simp
    · simp [Function.update_of_ne hname, Ne.symm hname]

/-- A row is made of the buckets that are joined with its container. -/
lemma tally_apply (buckets : List Bucket) (name : CodeText) :
    tally lower expected containers buckets name =
      (buckets.filter fun b => decide (wanted lower containers b.key = some name)).foldl
        (Row.assign expected) (blank name) := by
  have hfold : ∀ (bs : List Bucket) (rows : CodeText → Row),
      bs.foldl (join lower expected containers) rows name =
        (bs.filter fun b => decide (wanted lower containers b.key = some name)).foldl
          (Row.assign expected) (rows name) := by
    intro bs
    induction bs with
    | nil => exact fun _ => rfl
    | cons b bs ih =>
      intro rows
      rw [List.foldl_cons, ih, join_apply]
      by_cases hwanted : wanted lower containers b.key = some name
      · simp [hwanted]
      · simp [hwanted]
  exact hfold buckets blank

/-- A container that keeps its name gets all buckets with its name, another one none. -/
lemma joined_buckets (buckets : List Bucket) (name : CodeText) :
    (buckets.filter fun b => decide (wanted lower containers b.key = some name)) =
      if wanted lower containers name = some name then matching lower name buckets else [] := by
  split_ifs with hkeeps
  · refine List.filter_congr fun b _ => ?_
    rw [decide_eq_decide]
    constructor
    · exact fun h => (wanted_eq_some h).2.symm
    · exact fun h => (wanted_congr h).trans hkeeps
  · rw [List.filter_eq_nil_iff]
    intro b _ h
    have hwanted := of_decide_eq_true h
    exact hkeeps ((wanted_congr (wanted_eq_some hwanted).2).trans hwanted)

end Joining

/-! ## One row -/

section Rows

variable {lower : CodeText → CodeText} {expected : List CodeText}

lemma assign_name (row : Row) (b : Bucket) : (row.assign expected b).name = row.name := by
  unfold Row.assign
  split <;> rfl

/-- What is left in the fields of a row. -/
lemma foldl_assign (bs : List Bucket) (row : Row) :
    bs.foldl (Row.assign expected) row =
      { name := row.name
        alerts := lastAssigned (fun b => some b.docCount) bs row.alerts
        detected :=
          lastAssigned (fun b => (relevant expected b).min?.map fun _ => true) bs row.detected
        firstAlertAt :=
          lastAssigned (fun b => (relevant expected b).min?.map some) bs row.firstAlertAt } := by
  induction bs using List.reverseRecOn with
  | nil => rfl
  | append_singleton bs b ih =>
    rw [List.foldl_append, List.foldl_cons, List.foldl_nil, ih]
    simp only [lastAssigned_concat, Row.assign]
    cases (relevant expected b).min? <;> rfl

variable (expected) in
/-- The times of some buckets. -/
def timesOf (bs : List Bucket) : List ℤ := bs.flatMap (relevant expected)

lemma mem_timesOf {bs : List Bucket} {t : ℤ} :
    t ∈ timesOf expected bs ↔ ∃ b ∈ bs, t ∈ relevant expected b := List.mem_flatMap

lemma timesOf_eq_nil_iff {bs : List Bucket} :
    timesOf expected bs = [] ↔ ∀ b ∈ bs, (relevant expected b).min? = none := by
  simp [timesOf, List.flatMap_eq_nil_iff, List.min?_eq_none_iff]

lemma alerts_perm_iff (bs : List Bucket) :
    (∀ bs' : List Bucket, bs'.Perm bs →
        lastAssigned (fun b => some b.docCount) bs' 0 = (bs.map (·.docCount)).sum) ↔
      bs.length ≤ 1 ∨ ∀ b ∈ bs, b.docCount = 0 := by
  rw [lastAssigned_perm_iff, ← forall_eq_sum_iff]
  constructor
  · exact fun h b hb => h.1 b hb _ rfl
  · intro h
    refine ⟨fun b hb x hx => ?_, fun hnone => ?_⟩
    · cases hx
      exact h b hb
    · cases bs with
      | nil => rfl
      | cons b bs => exact absurd (hnone b List.mem_cons_self) (by simp)

lemma detected_perm (bs : List Bucket) : ∀ bs' : List Bucket, bs'.Perm bs →
    lastAssigned (fun b => (relevant expected b).min?.map fun _ => true) bs' false =
      !(timesOf expected bs).isEmpty := by
  rw [lastAssigned_perm_iff]
  refine ⟨fun b hb x hx => ?_, fun hnone => ?_⟩
  · obtain ⟨t, ht, rfl⟩ := Option.map_eq_some_iff.mp hx
    have hne : timesOf expected bs ≠ [] := by
      intro hnil
      rw [timesOf_eq_nil_iff.mp hnil b hb] at ht
      cases ht
    simp [hne]
  · have hnil : timesOf expected bs = [] :=
      timesOf_eq_nil_iff.mpr fun b hb => Option.map_eq_none_iff.mp (hnone b hb)
    simp [hnil]

/-- The earliest time is left in all orders exactly if all buckets with times begin at it. -/
lemma first_perm_iff (bs : List Bucket) :
    (∀ bs' : List Bucket, bs'.Perm bs →
        lastAssigned (fun b => (relevant expected b).min?.map some) bs' none =
          (timesOf expected bs).min?) ↔
      ∀ b ∈ bs, ∀ b' ∈ bs, ∀ t ∈ (relevant expected b).min?, ∀ t' ∈ (relevant expected b').min?,
        t = t' := by
  rw [lastAssigned_perm_iff]
  constructor
  · rintro ⟨h, -⟩ b hb b' hb' t ht t' ht'
    have hfirst := h b hb (some t) (Option.map_eq_some_iff.mpr ⟨t, ht, rfl⟩)
    have hfirst' := h b' hb' (some t') (Option.map_eq_some_iff.mpr ⟨t', ht', rfl⟩)
    exact Option.some.inj (hfirst.trans hfirst'.symm)
  · intro h
    refine ⟨fun b hb x hx => ?_, fun hnone => ?_⟩
    · obtain ⟨t, ht, rfl⟩ := Option.map_eq_some_iff.mp hx
      symm
      rw [List.min?_eq_some_iff]
      refine ⟨mem_timesOf.mpr ⟨b, hb, (List.min?_eq_some_iff.mp ht).1⟩, fun u hu => ?_⟩
      obtain ⟨b', hb', hu⟩ := mem_timesOf.mp hu
      -- the bucket that has this time begins with one that is not later
      obtain ⟨t', ht'⟩ : ∃ t', (relevant expected b').min? = some t' := by
        rw [← Option.ne_none_iff_exists', Ne, List.min?_eq_none_iff]
        exact List.ne_nil_of_mem hu
      rw [h b hb b' hb' t ht t' ht']
      exact (List.min?_eq_some_iff.mp ht').2 u hu
    · symm
      rw [List.min?_eq_none_iff, timesOf_eq_nil_iff]
      exact fun b hb => Option.map_eq_none_iff.mp (hnone b hb)

/-- In all orders the buckets leave the row that is meant exactly if there is one of them or none has
alerts, and those with times begin at the same. -/
lemma assign_perm_iff (bs : List Bucket) (name : CodeText) :
    (∀ bs' : List Bucket, bs'.Perm bs → bs'.foldl (Row.assign expected) (blank name) =
        { name := name, alerts := (bs.map (·.docCount)).sum,
          detected := !(timesOf expected bs).isEmpty,
          firstAlertAt := (timesOf expected bs).min? }) ↔
      (bs.length ≤ 1 ∨ ∀ b ∈ bs, b.docCount = 0) ∧
        ∀ b ∈ bs, ∀ b' ∈ bs, ∀ t ∈ (relevant expected b).min?,
          ∀ t' ∈ (relevant expected b').min?, t = t' := by
  rw [← alerts_perm_iff, ← first_perm_iff]
  constructor
  · intro h
    refine ⟨fun bs' hperm => ?_, fun bs' hperm => ?_⟩
    · have hrow := h bs' hperm
      rw [foldl_assign] at hrow
      exact congrArg Row.alerts hrow
    · have hrow := h bs' hperm
      rw [foldl_assign] at hrow
      exact congrArg Row.firstAlertAt hrow
  · rintro ⟨halerts, hfirst⟩ bs' hperm
    rw [foldl_assign]
    show Row.mk name _ _ _ = _
    rw [← halerts bs' hperm, ← hfirst bs' hperm, ← detected_perm bs bs' hperm]
    rfl

end Rows

/-! ## The check -/

section Check

variable (lower : CodeText → CodeText) (expected : List CodeText)

/-- In all orders of the buckets a container has the row that is meant exactly if it gets it. -/
lemma row_perm_iff (containers : List CodeText) (buckets : List Bucket) (name : CodeText) :
    (∀ buckets' : List Bucket, buckets'.Perm buckets →
        tally lower expected containers buckets' name = rowOf lower expected buckets name) ↔
      Joined lower expected containers buckets name := by
  simp only [tally_apply, joined_buckets]
  unfold Joined
  split_ifs with hkeeps
  · rw [← assign_perm_iff _ name]
    exact forall_filter_perm_iff (fun b => decide (lower b.key = lower name)) buckets fun bs =>
      bs.foldl (Row.assign expected) (blank name) = rowOf lower expected buckets name
  · have hnil : alertTimes lower expected name buckets = [] ↔
        ∀ b ∈ matching lower name buckets, relevant expected b = [] := by
      simp [alertTimes, List.flatMap_eq_nil_iff]
    constructor
    · intro h b hb
      have hrow : blank name = rowOf lower expected buckets name := h buckets (.refl buckets)
      have halerts : ((matching lower name buckets).map (·.docCount)).sum = 0 :=
        (congrArg Row.alerts hrow).symm
      have htimes : (alertTimes lower expected name buckets).min? = none :=
        (congrArg Row.firstAlertAt hrow).symm
      exact ⟨(sum_eq_zero_iff _ _).mp halerts b hb,
        hnil.mp (List.min?_eq_none_iff.mp htimes) b hb⟩
    · intro h buckets' _
      have halerts := (sum_eq_zero_iff (·.docCount) _).mpr fun b hb => (h b hb).1
      have htimes := hnil.mpr fun b hb => (h b hb).2
      rw [rowOf, halerts, htimes]
      rfl

/-- A share of the containers, in percent, is one of them at most. -/
lemma rate_bounds (R : Rounding) (targets : Targets) (buckets : List Bucket) :
    0 ≤ (check lower expected R targets buckets).detectionRate ∧
      (check lower expected R targets buckets).detectionRate ≤ 100 := by
  set detected := (check lower expected R targets buckets).detected with hdetected
  have hle : detected ≤ targets.names.length := by
    rw [hdetected]
    refine (List.length_filter_le _ _).trans ?_
    rw [List.length_map]
  show 0 ≤ (if targets.names = [] then 0 else R.round (100 * detected / targets.names.length)) ∧
    (if targets.names = [] then 0 else R.round (100 * detected / targets.names.length)) ≤ 100
  split_ifs with hnil
  · norm_num
  · have hpos : (0 : ℚ) < targets.names.length := by
      exact_mod_cast List.length_pos_iff.mpr hnil
    constructor
    · exact R.zero.ge.trans (R.mono (by positivity))
    · refine (R.mono ?_).trans R.hundred.le
      rw [div_le_iff₀ hpos]
      have hcast : (detected : ℚ) ≤ targets.names.length := by exact_mod_cast hle
      linarith

/-- What a check should say: every row is the one that is meant, in whatever order the buckets come;
the alerts are those of the rows, and the rate is one. -/
structure Meant (R : Rounding) (targets : Targets) (buckets : List Bucket) : Prop where
  rows : (check lower expected R targets buckets).perContainer =
    targets.names.map (rowOf lower expected buckets)
  order : ∀ buckets' : List Bucket, buckets'.Perm buckets →
    check lower expected R targets buckets' = check lower expected R targets buckets
  total : (check lower expected R targets buckets).alerts =
    ((check lower expected R targets buckets).perContainer.map (·.alerts)).sum
  rate : 0 ≤ (check lower expected R targets buckets).detectionRate ∧
    (check lower expected R targets buckets).detectionRate ≤ 100

/-- **The check counts each alert once, in whatever order the buckets come,** exactly if every
container gets its row. -/
theorem counts_each_iff (R : Rounding) (targets : Targets) (buckets : List Bucket) :
    Meant lower expected R targets buckets ↔
      ∀ name ∈ targets.names, Joined lower expected targets.names buckets name := by
  constructor
  · intro h name hname
    rw [← row_perm_iff]
    intro buckets' hperm
    have hrows : targets.names.map (tally lower expected targets.names buckets') =
        targets.names.map (rowOf lower expected buckets) :=
      (congrArg Result.perContainer (h.order buckets' hperm)).trans h.rows
    exact List.map_inj_left.mp hrows name hname
  · intro h
    have hrows : ∀ buckets' : List Bucket, buckets'.Perm buckets →
        targets.names.map (tally lower expected targets.names buckets') =
          targets.names.map (rowOf lower expected buckets) := fun buckets' hperm =>
      List.map_congr_left fun name hname =>
        (row_perm_iff lower expected targets.names buckets name).mpr (h name hname) buckets' hperm
    refine ⟨hrows buckets (.refl buckets), fun buckets' hperm => ?_, rfl,
      rate_bounds lower expected R targets buckets⟩
    simp only [check, hrows buckets' hperm, hrows buckets (.refl buckets)]

end Check

/-- Rounding that leaves everything as it is. -/
def exactly : Rounding where
  round q := q
  mono := monotone_id
  zero := rfl
  hundred := rfl

/-- `str.lower`, of ASCII. -/
def lowerAscii (t : CodeText) : CodeText :=
  t.map fun c => if 65 ≤ c ∧ c ≤ 90 then c + 32 else c

/-- Two buckets of the host of one container, whose names differ in case. -/
def twoBuckets : List Bucket :=
  [⟨lit "Web-1", 5, [(lit "5710", some 30)], by decide⟩,
    ⟨lit "web-1", 2, [(lit "5710", some 90)], by decide⟩]

/-- Of seven alerts two are counted, and the first one is forgotten. -/
theorem bucket_overwritten :
    ((check lowerAscii (expectedRules (lit "wazuh") (lit "auth_bruteforce")) exactly
        ⟨[lit "Web-1"], by decide⟩ twoBuckets).perContainer =
      [⟨lit "Web-1", 2, true, some 90⟩]) ∧
    rowOf lowerAscii (expectedRules (lit "wazuh") (lit "auth_bruteforce")) twoBuckets
      (lit "Web-1") = ⟨lit "Web-1", 7, true, some 30⟩ := by
  decide +kernel

end Habeny.Simulations.Detection
