import Habeny.Lib.Dict
import Habeny.Simulations.Detection
import Habeny.Simulations.Search

/-!
# What a check makes of an answer

The answer of a SIEM is any JSON value.  A check reads the buckets of the hosts and of the rules in
it, and raises where a key is missing, something is no object, a time is out of range or has a time
zone where the start has none.

For every part of an answer there is what the code reads, and beside it the shape that the part
needs; `isSome_analyse` puts the shapes together.
-/

namespace Habeny.Simulations.Answer

open Habeny.Lib CodeText Search

/-! ## Times -/

/-- A time, in microseconds, with the offset of its zone if it has one. -/
structure Time where
  offset : Option ℤ
  instant : ℤ

def Time.aware (t : Time) : Bool := t.offset.isSome

/-- What is used of the language and its libraries. -/
structure AnswerEnv extends SearchEnv where
  /-- `str.lower` -/
  lower : CodeText → CodeText
  /-- whether a code point is a decimal digit -/
  isDecimal : ℕ → Bool
  /-- `datetime.fromisoformat`, nothing for a `ValueError` -/
  fromisoformat : CodeText → Option Time
  /-- `datetime.fromtimestamp(value / 1000, timezone.utc)` -/
  fromMillis : JsonValue → Option Time
  isoformat : Time → CodeText
  /-- the float next to a number -/
  nearest : ℚ → ℚ
  /-- `round(x, 1)` -/
  roundTenth : ℚ → ℚ
  /-- an integer as a float, if it is not too large -/
  toFloat : ℤ → Option JsonFloat
  addFloat : JsonFloat → JsonFloat → JsonFloat

/-- `str.replace("Z", "+00:00")` -/
def replaceZ (t : CodeText) : CodeText := t.flatMap fun c => if c = 90 then lit "+00:00" else [c]

/-- Put a colon into an offset of four digits at the end of a text, or before its last newline. -/
def insertColon (isDecimal : ℕ → Bool) (t : CodeText) : CodeText :=
  let (body, tail) := if t.getLast? = some newline then (t.dropLast, [newline]) else (t, [])
  match body.reverse with
  | d :: c :: b :: a :: sign :: rest =>
    if (sign = 43 ∨ sign = 45) ∧ [a, b, c, d].all isDecimal = true then
      rest.reverse ++ [sign, a, b, 58, c, d] ++ tail
    else t
  | _ => t

/-- The earliest of some times.  Times with a zone and times without one cannot be compared. -/
def earliest (t : Time) (ts : List Time) : Option Time :=
  ts.foldlM (fun best t =>
    if t.aware = best.aware then some (if t.instant < best.instant then t else best) else none) t

/-- `(t - start).total_seconds()` -/
def AnswerEnv.secondsSince (env : AnswerEnv) (start t : Time) : Option ℚ :=
  if t.aware = start.aware then some (env.nearest ((t.instant - start.instant) / 1000000)) else none

lemma earliest_eq_none_or {t first : Time} {ts : List Time} (h : earliest t ts = some first) :
    first.aware = t.aware := by
  induction ts generalizing t with
  | nil => exact congrArg Time.aware (Option.some.inj h).symm
  | cons u ts ih =>
    rw [earliest, List.foldlM_cons] at h
    by_cases hkind : u.aware = t.aware
    · rw [if_pos hkind] at h
      refine (ih h).trans ?_
      split_ifs
      · exact hkind
      · rfl
    · rw [if_neg hkind] at h
      cases h

lemma isSome_earliest {t : Time} {ts : List Time} :
    (earliest t ts).isSome = true ↔ ∀ u ∈ ts, u.aware = t.aware := by
  induction ts generalizing t with
  | nil => simp [earliest]
  | cons u ts ih =>
    rw [earliest, List.foldlM_cons, List.forall_mem_cons]
    by_cases hkind : u.aware = t.aware
    · rw [if_pos hkind]
      refine (ih (t := if u.instant < t.instant then u else t)).trans ?_
      have hbest : (if u.instant < t.instant then u else t).aware = t.aware := by
        split_ifs
        · exact hkind
        · rfl
      rw [hbest]
      exact (and_iff_right hkind).symm
    · rw [if_neg hkind]
      simp [hkind]

variable (F : JsonText.FloatText) [DecidablePred F.isFloat] (env : AnswerEnv)

/-- Read a time (`_parse_time`); nothing if there is none. -/
def parseTime (v : JsonValue) : Option (Option Time) :=
  match v with
  | .null => some none
  | v =>
    if v.isNumber then (env.fromMillis v).map some
    else (env.str F v).map fun t => env.fromisoformat (insertColon env.isDecimal (replaceZ t))

/-- The time that a value is. -/
def timeOf (v : JsonValue) : Option Time := (parseTime F env v).getD none

/-- Whether reading a time returns: a number is within range, and another value is written. -/
def timeShape (v : JsonValue) : Bool :=
  if v.isNumber then (env.fromMillis v).isSome else env.writes v

lemma parseTime_eq (v : JsonValue) :
    parseTime F env v = returnIf (timeShape env v) (timeOf F env v) := by
  have hsome : (parseTime F env v).isSome = timeShape env v := by
    unfold parseTime timeShape
    split
    · rfl
    · split_ifs
      · exact Option.isSome_map
      · rw [Option.isSome_map, isSome_str]
  rw [← hsome]
  exact eq_returnIf ..

/-- The time of a minimum (`_first`): its number, or else its text. -/
def first (bucket : JsonValue) : Option (Option Time) := do
  let first ← bucket.get (lit "first")
  let value ← first.orEmpty.get (lit "value")
  (if value.isNumber then some value else first.orEmpty.get (lit "value_as_string")) >>=
    parseTime F env

/-- What is read as the time of a bucket. -/
def firstValue (bucket : JsonValue) : JsonValue :=
  let first := bucket.entry (lit "first")
  if (first.entry (lit "value")).isNumber then first.entry (lit "value")
  else first.entry (lit "value_as_string")

def firstOf (bucket : JsonValue) : Option Time := timeOf F env (firstValue bucket)

/-- A bucket has a minimum that can be read. -/
def firstShape (bucket : JsonValue) : Bool :=
  bucket.isObject && (bucket.entry (lit "first")).objectOrFalsy && timeShape env (firstValue bucket)

lemma first_eq (bucket : JsonValue) :
    first F env bucket = returnIf (firstShape env bucket) (firstOf F env bucket) := by
  rw [first, JsonValue.get_eq, firstShape, Bool.and_assoc]
  refine bind_returnIf ?_
  set found := bucket.entry (lit "first") with hfound
  rw [JsonValue.get_orEmpty]
  cases hobject : found.objectOrFalsy with
  | false => rfl
  | true =>
    show (if (found.entry (lit "value")).isNumber then some (found.entry (lit "value"))
        else found.orEmpty.get (lit "value_as_string")) >>= parseTime F env = _
    have hvalue : (if (found.entry (lit "value")).isNumber then some (found.entry (lit "value"))
        else found.orEmpty.get (lit "value_as_string")) = some (firstValue bucket) := by
      rw [JsonValue.get_orEmpty, hobject, firstValue, ← hfound]
      split_ifs <;> rfl
    rw [hvalue]
    exact parseTime_eq F env _

/-! ## The buckets of the hosts -/

/-- The text of the value of a key. -/
def textAt (key : String) (bucket : JsonValue) : CodeText :=
  (env.str F (bucket.entry (lit key))).getD []

/-- `str(value[key])` -/
def strItem (key : String) (bucket : JsonValue) : Option CodeText :=
  bucket.item (lit key) >>= env.str F

def strShape (key : String) (bucket : JsonValue) : Bool :=
  bucket.hasKey (lit key) && env.writes (bucket.entry (lit key))

lemma strItem_eq (key : String) (bucket : JsonValue) :
    strItem F env key bucket = returnIf (strShape env key bucket) (textAt F env key bucket) := by
  rw [strItem, JsonValue.item_eq]
  exact bind_returnIf (str_eq (F := F))

/-- A rule, and when it fired first. -/
def ruleTime (bucket : JsonValue) : Option (CodeText × Option Time) := do
  let id ← strItem F env "key" bucket
  let t ← first F env bucket
  return (id, t)

def ruleTimeShape (bucket : JsonValue) : Bool := strShape env "key" bucket && firstShape env bucket

def ruleTimeOf (bucket : JsonValue) : CodeText × Option Time :=
  (textAt F env "key" bucket, firstOf F env bucket)

/-- The dictionary of some pairs: of pairs with one key the last one counts. -/
def dictOf (pairs : List (CodeText × Option Time)) : Dict CodeText (Option Time) :=
  pairs.foldl (fun d e => d.set e.1 e.2) Dict.empty

/-- The times of the rules that count. -/
def relevant (expected : List CodeText) (times : Dict CodeText (Option Time)) : List Time :=
  times.items.filterMap fun e => if expected = [] ∨ e.1 ∈ expected then e.2 else none

structure Row where
  name : CodeText
  alerts : JsonValue
  detected : Bool
  firstAlertAt : Option Time
  ttdSeconds : Option ℚ

/-- A check, as far as joining a bucket depends on it. -/
structure Asked where
  containers : List CodeText
  expected : List CodeText
  start : Time

/-- The rows before the first bucket. -/
def blank (name : CodeText) : Row :=
  { name, alerts := .int 0, detected := false, firstAlertAt := none, ttdSeconds := none }

/-- What the times of the rules change in a row. -/
def Row.detect (q : Asked) (row : Row) : List Time → Option Row
  | [] => some row
  | t :: ts => do
    let first ← earliest t ts
    let seconds ← env.secondsSince q.start first
    return { row with
      detected := true
      firstAlertAt := some first
      ttdSeconds := some (env.roundTenth (max 0 seconds)) }

/-- What a bucket makes of its container's row. -/
def joined (q : Asked) (row : Row) (bucket : JsonValue) : Option Row := do
  let count ← bucket.item (lit "doc_count")
  let rules ← bucket.get (lit "rules")
  let buckets ← rules.orEmpty.getItems (lit "buckets")
  let times ← buckets.mapM (ruleTime F env)
  { row with alerts := count }.detect env q (relevant q.expected (dictOf times))

/-- Join a bucket with its container. -/
def join (q : Asked) (rows : CodeText → Row) (bucket : JsonValue) : Option (CodeText → Row) := do
  let key ← strItem F env "key" bucket
  match Detection.wanted env.lower q.containers key with
  | none => return rows
  | some name => (joined F env q (rows name) bucket).map (Function.update rows name)

lemma ruleTime_eq (bucket : JsonValue) :
    ruleTime F env bucket = returnIf (ruleTimeShape env bucket) (ruleTimeOf F env bucket) := by
  rw [ruleTime, strItem_eq]
  refine bind_returnIf ?_
  rw [first_eq]
  cases firstShape env bucket <;> rfl

/-- The container that a bucket is joined with. -/
def containerOf (q : Asked) (bucket : JsonValue) : Option CodeText :=
  Detection.wanted env.lower q.containers (textAt F env "key" bucket)

/-- The buckets of the rules of a host. -/
def rulesOf (bucket : JsonValue) : List JsonValue :=
  (bucket.entry (lit "rules")).itemsAt (lit "buckets")

/-- The times of the rules that count, as a bucket has them. -/
def timesOf (q : Asked) (bucket : JsonValue) : List Time :=
  relevant q.expected (dictOf ((rulesOf bucket).map (ruleTimeOf F env)))

/-- A bucket of a container: it has a count and buckets of rules, and its times that count have a
zone if the start has one. -/
def joinedShape (q : Asked) (bucket : JsonValue) : Bool :=
  bucket.hasKey (lit "doc_count") &&
    ((bucket.entry (lit "rules")).objectOrFalsy &&
      (bucket.entry (lit "rules")).iterableAt (lit "buckets")) &&
    (rulesOf bucket).all (ruleTimeShape env) &&
    (timesOf F env q bucket).all fun t => t.aware == q.start.aware

/-- A bucket of a host that is joined with a container, or with none. -/
def hostShape (q : Asked) (bucket : JsonValue) : Bool :=
  strShape env "key" bucket &&
    ((containerOf F env q bucket).isNone || joinedShape F env q bucket)

lemma isSome_detect (q : Asked) (row : Row) (ts : List Time) :
    (row.detect env q ts).isSome = ts.all fun t => t.aware == q.start.aware := by
  cases ts with
  | nil => rfl
  | cons t ts =>
    rw [Bool.eq_iff_iff, List.all_cons, Bool.and_eq_true, List.all_eq_true]
    simp only [beq_iff_eq, Row.detect]
    cases hfirst : earliest t ts with
    | none =>
      refine iff_of_false (by simp) ?_
      rintro ⟨ht, hts⟩
      have hsome : (earliest t ts).isSome = true :=
        isSome_earliest.mpr fun u hu => (hts u hu).trans ht.symm
      rw [hfirst] at hsome
      cases hsome
    | some first =>
      have hkinds : ∀ u ∈ ts, u.aware = t.aware := isSome_earliest.mp (by rw [hfirst]; rfl)
      have hkind : first.aware = t.aware := earliest_eq_none_or hfirst
      show ((env.secondsSince q.start first >>= _ : Option Row)).isSome = true ↔ _
      rw [AnswerEnv.secondsSince, hkind]
      split_ifs with hstart
      · exact iff_of_true rfl ⟨hstart, fun u hu => (hkinds u hu).trans hstart⟩
      · exact iff_of_false (by simp) fun h => hstart h.1

lemma detect_alerts {q : Asked} {row row' : Row} {ts : List Time}
    (h : row.detect env q ts = some row') : row'.alerts = row.alerts := by
  cases ts with
  | nil => exact congrArg Row.alerts (Option.some.inj h).symm
  | cons t ts =>
    obtain ⟨first, -, h⟩ := Option.bind_eq_some_iff.mp h
    obtain ⟨seconds, -, h⟩ := Option.bind_eq_some_iff.mp h
    obtain rfl := Option.some.inj h
    rfl

lemma isSome_joined (q : Asked) (row : Row) {bucket : JsonValue}
    (hobject : bucket.isObject = true) :
    (joined F env q row bucket).isSome = joinedShape F env q bucket := by
  rw [joined, JsonValue.item_eq, isSome_bind_returnIf, JsonValue.get_eq, hobject,
    isSome_bind_returnIf, JsonValue.getItems_orEmpty, isSome_bind_returnIf,
    mapM_returnIf (ruleTime_eq F env), isSome_bind_returnIf, isSome_detect, joinedShape,
    Bool.true_and]
  simp only [Bool.and_assoc]
  rfl

/-- Joining a bucket returns exactly if it has the shape of a bucket of a host. -/
lemma isSome_join (q : Asked) (rows : CodeText → Row) (bucket : JsonValue) :
    (join F env q rows bucket).isSome = hostShape F env q bucket := by
  rw [join, strItem_eq, hostShape, isSome_bind_returnIf, containerOf]
  cases hkey : strShape env "key" bucket with
  | false => rfl
  | true =>
    have hobject : bucket.isObject = true := by
      cases bucket with
      | dict es => rfl
      | _ => cases hkey
    cases Detection.wanted env.lower q.containers (textAt F env "key" bucket) with
    | none => rfl
    | some name => exact Option.isSome_map.trans (isSome_joined F env q _ hobject)

/-- A bucket's count is the one of its container's row. -/
lemma join_alerts {q : Asked} {rows rows' : CodeText → Row} {bucket : JsonValue}
    (h : join F env q rows bucket = some rows') (name : CodeText) :
    (rows' name).alerts =
      if containerOf F env q bucket = some name then bucket.entry (lit "doc_count")
      else (rows name).alerts := by
  rw [join, strItem_eq] at h
  obtain ⟨key, hkey, h⟩ := Option.bind_eq_some_iff.mp h
  obtain ⟨-, rfl⟩ := returnIf_eq_some_iff.mp hkey
  rw [containerOf]
  cases hwanted : Detection.wanted env.lower q.containers (textAt F env "key" bucket) with
  | none =>
    rw [hwanted] at h
    obtain rfl := Option.some.inj h
    simp
  | some other =>
    rw [hwanted] at h
    obtain ⟨row, hrow, rfl⟩ := Option.map_eq_some_iff.mp h
    by_cases hname : other = name
    · subst hname
      rw [Function.update_self, if_pos rfl]
      obtain ⟨count, hcount, hrow⟩ := Option.bind_eq_some_iff.mp hrow
      obtain ⟨rules, -, hrow⟩ := Option.bind_eq_some_iff.mp hrow
      obtain ⟨buckets, -, hrow⟩ := Option.bind_eq_some_iff.mp hrow
      obtain ⟨times, -, hrow⟩ := Option.bind_eq_some_iff.mp hrow
      rw [JsonValue.item_eq, returnIf_eq_some_iff] at hcount
      exact (detect_alerts env hrow).trans hcount.2.symm
    · rw [Function.update_of_ne (Ne.symm hname), if_neg fun h => hname (Option.some.inj h)]

/-- The rows of the containers. -/
def tally (q : Asked) (buckets : List JsonValue) : Option (CodeText → Row) :=
  buckets.foldlM (join F env q) blank

lemma isSome_tally (q : Asked) (buckets : List JsonValue) :
    (tally F env q buckets).isSome = buckets.all (hostShape F env q) := by
  have hjoin : ∀ (rows : CodeText → Row) (bucket : JsonValue), join F env q rows bucket =
      returnIf (hostShape F env q bucket) ((join F env q rows bucket).getD rows) := by
    intro rows bucket
    rw [← isSome_join F env q rows]
    exact eq_returnIf ..
  rw [tally, foldlM_returnIf hjoin, isSome_returnIf]

open LastWins in
/-- The count of a container: the last one of its buckets. -/
def countOf (q : Asked) (buckets : List JsonValue) (name : CodeText) : JsonValue :=
  lastAssigned (fun b => if containerOf F env q b = some name then
    some (b.entry (lit "doc_count")) else none) buckets (.int 0)

lemma tally_alerts {q : Asked} {buckets : List JsonValue} {rows : CodeText → Row}
    (h : tally F env q buckets = some rows) (name : CodeText) :
    (rows name).alerts = countOf F env q buckets name := by
  induction buckets using List.reverseRecOn generalizing rows with
  | nil =>
    obtain rfl := Option.some.inj h
    rfl
  | append_singleton buckets b ih =>
    rw [tally, List.foldlM_append] at h
    obtain ⟨rows', hrows', h⟩ := Option.bind_eq_some_iff.mp h
    obtain ⟨rows'', hjoin, h⟩ := Option.bind_eq_some_iff.mp h
    obtain rfl := Option.some.inj h
    rw [join_alerts F env hjoin, ih hrows', countOf, countOf, LastWins.lastAssigned_concat]
    split_ifs <;> rfl

/-! ## Buckets as they are meant to be -/

/-- A bucket of an answer is one with a count, and instants for the rules that have times. -/
structure ReadsAs (bucket : JsonValue) (b : Detection.Bucket) : Prop where
  key : textAt F env "key" bucket = b.key
  count : bucket.entry (lit "doc_count") = .int b.docCount
  rules : (dictOf ((rulesOf bucket).map (ruleTimeOf F env))).items.map
    (fun e => (e.1, e.2.map Time.instant)) = b.rules

/-- A row that says the same. -/
structure Row.SaysAs (row : Row) (meant : Detection.Row) : Prop where
  name : row.name = meant.name
  alerts : row.alerts = .int meant.alerts
  detected : row.detected = meant.detected
  firstAlertAt : row.firstAlertAt.map Time.instant = meant.firstAlertAt

lemma relevant_instants (expected : List CodeText) {times : Dict CodeText (Option Time)}
    {b : Detection.Bucket}
    (h : times.items.map (fun e => (e.1, e.2.map Time.instant)) = b.rules) :
    (relevant expected times).map Time.instant = Detection.relevant expected b := by
  rw [relevant, Detection.relevant, ← h, List.map_filterMap, List.filterMap_map]
  refine List.filterMap_congr fun e _ => ?_
  dsimp only [Function.comp_apply]
  split_ifs <;> rfl

lemma earliest_instant {t first : Time} {ts : List Time} (h : earliest t ts = some first) :
    (ts.map Time.instant).foldl min t.instant = first.instant := by
  induction ts generalizing t with
  | nil =>
    obtain rfl := Option.some.inj h
    rfl
  | cons u ts ih =>
    rw [earliest, List.foldlM_cons] at h
    by_cases hkind : u.aware = t.aware
    · rw [if_pos hkind] at h
      have hbest : (if u.instant < t.instant then u else t).instant = min t.instant u.instant := by
        split_ifs <;> omega
      rw [List.map_cons, List.foldl_cons, ← hbest]
      exact ih h
    · rw [if_neg hkind] at h
      cases h

lemma joined_saysAs {q : Asked} {row row' : Row} {meant : Detection.Row} {bucket : JsonValue}
    {b : Detection.Bucket} (hreads : ReadsAs F env bucket b) (hrow : row.SaysAs meant)
    (h : joined F env q row bucket = some row') : row'.SaysAs (meant.assign q.expected b) := by
  obtain ⟨count, hcount, h⟩ := Option.bind_eq_some_iff.mp h
  obtain ⟨rules, hrules, h⟩ := Option.bind_eq_some_iff.mp h
  obtain ⟨buckets, hbuckets, h⟩ := Option.bind_eq_some_iff.mp h
  obtain ⟨times, htimes, h⟩ := Option.bind_eq_some_iff.mp h
  rw [JsonValue.item_eq, returnIf_eq_some_iff] at hcount
  obtain ⟨-, rfl⟩ := hcount
  rw [JsonValue.get_eq, returnIf_eq_some_iff] at hrules
  obtain ⟨-, rfl⟩ := hrules
  rw [JsonValue.getItems_orEmpty, returnIf_eq_some_iff] at hbuckets
  obtain ⟨-, rfl⟩ := hbuckets
  rw [mapM_returnIf (ruleTime_eq F env), returnIf_eq_some_iff] at htimes
  obtain ⟨-, rfl⟩ := htimes
  have hinstants := relevant_instants q.expected hreads.rules
  rw [Detection.Row.assign, ← hinstants]
  rw [rulesOf] at hinstants ⊢
  cases hrelevant : relevant q.expected (dictOf
      (((bucket.entry (lit "rules")).itemsAt (lit "buckets")).map (ruleTimeOf F env))) with
  | nil =>
    rw [hrelevant] at h
    obtain rfl := Option.some.inj h
    exact ⟨hrow.name, hreads.count, hrow.detected, hrow.firstAlertAt⟩
  | cons t ts =>
    rw [hrelevant] at h
    obtain ⟨first, hfirst, h⟩ := Option.bind_eq_some_iff.mp h
    obtain ⟨seconds, -, h⟩ := Option.bind_eq_some_iff.mp h
    obtain rfl := Option.some.inj h
    have hmin : ((t :: ts).map Time.instant).min? = some first.instant := by
      rw [List.map_cons, List.min?_cons', earliest_instant hfirst]
    rw [hmin]
    exact ⟨hrow.name, hreads.count, rfl, rfl⟩

/-- **The rows of an answer are those that are made of its buckets.** -/
theorem tally_saysAs {q : Asked} {buckets : List JsonValue} {bs : List Detection.Bucket}
    (hreads : List.Forall₂ (ReadsAs F env) buckets bs) {rows : CodeText → Row}
    (h : tally F env q buckets = some rows) (name : CodeText) :
    (rows name).SaysAs (Detection.tally env.lower q.expected q.containers bs name) := by
  have hfold : ∀ (rows₀ : CodeText → Row) (meant : CodeText → Detection.Row),
      (∀ name, (rows₀ name).SaysAs (meant name)) →
      buckets.foldlM (join F env q) rows₀ = some rows → ∀ name, (rows name).SaysAs
        (bs.foldl (Detection.join env.lower q.expected q.containers) meant name) := by
    clear h
    induction hreads with
    | nil =>
      intro rows₀ meant hstates h
      obtain rfl := Option.some.inj h
      exact hstates
    | @cons bucket b buckets bs hbucket _ ih =>
      intro rows₀ meant hstates h
      obtain ⟨rows₁, hjoin, h⟩ := Option.bind_eq_some_iff.mp h
      refine ih rows₁ _ (fun name => ?_) h
      rw [join, strItem_eq] at hjoin
      obtain ⟨key, hkey, hjoin⟩ := Option.bind_eq_some_iff.mp hjoin
      obtain ⟨-, rfl⟩ := returnIf_eq_some_iff.mp hkey
      rw [hbucket.key] at hjoin
      rw [Detection.join_apply]
      cases hwanted : Detection.wanted env.lower q.containers b.key with
      | none =>
        rw [hwanted] at hjoin
        obtain rfl := Option.some.inj hjoin
        rw [if_neg (by simp)]
        exact hstates name
      | some other =>
        rw [hwanted] at hjoin
        obtain ⟨row, hrow, rfl⟩ := Option.map_eq_some_iff.mp hjoin
        by_cases hname : other = name
        · subst hname
          rw [Function.update_self, if_pos rfl]
          exact joined_saysAs F env hbucket (hstates other) hrow
        · rw [Function.update_of_ne (Ne.symm hname), if_neg fun h => hname (Option.some.inj h)]
          exact hstates name
  exact hfold blank Detection.blank (fun name => ⟨rfl, rfl, rfl, rfl⟩) h name

/-! ## The sum of the alerts -/

/-- A number as a float, if it is not too large. -/
def AnswerEnv.asFloat (env : AnswerEnv) (v : JsonValue) : Option JsonFloat :=
  match v.integer? with
  | some n => env.toFloat n
  | none => v.float?

/-- `a + b`, of numbers -/
def AnswerEnv.plus (env : AnswerEnv) (a b : JsonValue) : Option JsonValue :=
  match a.integer?, b.integer? with
  | some m, some n => some (.int (m + n))
  | _, _ => do
    let x ← env.asFloat a
    let y ← env.asFloat b
    return .float (env.addFloat x y)

/-- `sum` -/
def AnswerEnv.sum (env : AnswerEnv) (vs : List JsonValue) : Option JsonValue :=
  vs.foldlM env.plus (.int 0)

/-- The sum of the integers among some values. -/
def integers (vs : List JsonValue) : ℤ := (vs.filterMap JsonValue.integer?).sum

/-- Numbers that can be added: none after the first float is an integer too large for a float, and
neither is the sum of those before it. -/
structure Summable (env : AnswerEnv) (vs : List JsonValue) : Prop where
  numbers : ∀ v ∈ vs, v.isNumber = true
  floats : ∀ before x after, vs = before ++ JsonValue.float x :: after →
    (∀ v ∈ before, v.integer?.isSome = true) →
      (env.toFloat (integers before)).isSome = true ∧
        ∀ v ∈ after, ∀ n ∈ v.integer?, (env.toFloat n).isSome = true

lemma integer?_of_isNumber {v : JsonValue} (h : v.isNumber = true) :
    v.integer?.isSome = true ∨ ∃ x, v = .float x := by
  cases v with
  | float x => exact .inr ⟨x, rfl⟩
  | bool b => exact .inl rfl
  | int n => exact .inl rfl
  | _ => cases h

lemma isNumber_of_integer? {v : JsonValue} {n : ℤ} (h : v.integer? = some n) :
    v.isNumber = true := by
  cases v with
  | bool b => rfl
  | int n => rfl
  | _ => cases h

/-- What can be added to a float. -/
lemma isSome_plus_float {x : JsonFloat} {v : JsonValue} :
    (env.plus (.float x) v).isSome = true ↔
      v.isNumber = true ∧ ∀ n ∈ v.integer?, (env.toFloat n).isSome = true := by
  have hplus : env.plus (.float x) v =
      (env.asFloat v).map fun y => .float (env.addFloat x y) := by
    show (env.asFloat v >>= fun y => some (JsonValue.float (env.addFloat x y))) = _
    cases env.asFloat v <;> rfl
  rw [hplus, Option.isSome_map, AnswerEnv.asFloat]
  cases hinteger : v.integer? with
  | some n => simp [isNumber_of_integer? hinteger]
  | none =>
    cases v with
    | float y => simp [JsonValue.float?, JsonValue.isNumber]
    | bool b => cases hinteger
    | int n => cases hinteger
    | _ => simp [JsonValue.float?, JsonValue.isNumber]

lemma plus_float_eq {x : JsonFloat} {v w : JsonValue} (h : env.plus (.float x) v = some w) :
    ∃ y, w = .float y := by
  obtain ⟨x', -, h⟩ := Option.bind_eq_some_iff.mp (show (env.asFloat (.float x) >>= fun x =>
    env.asFloat v >>= fun y => some (JsonValue.float (env.addFloat x y))) = some w from h)
  obtain ⟨y, -, h⟩ := Option.bind_eq_some_iff.mp h
  exact ⟨_, (Option.some.inj h).symm⟩

/-- What can be added to a float one after another. -/
lemma isSome_foldlM_float {x : JsonFloat} {vs : List JsonValue} :
    (vs.foldlM env.plus (.float x)).isSome = true ↔
      ∀ v ∈ vs, v.isNumber = true ∧ ∀ n ∈ v.integer?, (env.toFloat n).isSome = true := by
  induction vs generalizing x with
  | nil => simp
  | cons v vs ih =>
    rw [List.foldlM_cons, List.forall_mem_cons, ← isSome_plus_float (x := x)]
    cases hplus : env.plus (.float x) v with
    | none => simp
    | some w =>
      obtain ⟨y, rfl⟩ := plus_float_eq env hplus
      exact ih.trans (and_iff_right rfl).symm

lemma plus_integer {n k : ℤ} {v : JsonValue} (h : v.integer? = some k) :
    env.plus (.int n) v = some (.int (n + k)) := by
  rw [AnswerEnv.plus, h]
  rfl

lemma plus_float (n : ℤ) (x : JsonFloat) :
    env.plus (.int n) (.float x) =
      (env.toFloat n).map fun y => JsonValue.float (env.addFloat y x) := by
  show (env.toFloat n >>= fun y => some (JsonValue.float (env.addFloat y x))) = _
  cases env.toFloat n <;> rfl

/-- What can be added to an integer one after another. -/
lemma isSome_foldlM_int {n : ℤ} {vs : List JsonValue} :
    (vs.foldlM env.plus (.int n)).isSome = true ↔ (∀ v ∈ vs, v.isNumber = true) ∧
      ∀ before x after, vs = before ++ JsonValue.float x :: after →
        (∀ v ∈ before, v.integer?.isSome = true) →
          (env.toFloat (n + integers before)).isSome = true ∧
            ∀ v ∈ after, ∀ k ∈ v.integer?, (env.toFloat k).isSome = true := by
  induction vs generalizing n with
  | nil => simp
  | cons v vs ih =>
    rw [List.foldlM_cons, List.forall_mem_cons]
    cases hnumber : v.isNumber with
    | false =>
      refine iff_of_false ?_ fun h => absurd h.1.1 Bool.false_ne_true
      have hplus : env.plus (.int n) v = none := by
        cases v with
        | bool b => cases hnumber
        | int k => cases hnumber
        | float x => cases hnumber
        | _ => cases htoFloat : env.toFloat n <;>
            simp [AnswerEnv.plus, AnswerEnv.asFloat, JsonValue.integer?, JsonValue.float?, htoFloat]
      rw [hplus]
      simp
    | true =>
      rcases integer?_of_isNumber hnumber with hinteger | ⟨x, rfl⟩
      · obtain ⟨k, hk⟩ := Option.isSome_iff_exists.mp hinteger
        rw [plus_integer env hk]
        refine (ih (n := n + k)).trans (and_congr (and_iff_right rfl).symm ?_)
        constructor
        · intro h before x after hsplit hbefore
          cases before with
          | nil =>
            obtain ⟨rfl, -⟩ := List.cons.inj hsplit
            cases hk
          | cons u before =>
            obtain ⟨rfl, rfl⟩ := List.cons.inj hsplit
            have hrest := h before x after rfl fun w hw => hbefore w (List.mem_cons_of_mem _ hw)
            simpa [integers, hk, add_assoc] using hrest
        · intro h before x after hsplit hbefore
          have hall := h (v :: before) x after (by rw [hsplit]; rfl) fun w hw => by
            rcases List.mem_cons.mp hw with rfl | hw
            · exact hinteger
            · exact hbefore w hw
          simpa [integers, hk, add_assoc] using hall
      · rw [plus_float]
        cases htoFloat : env.toFloat n with
        | none =>
          refine iff_of_false (by simp) fun h => ?_
          have hfirst := (h.2 [] x vs rfl (by simp)).1
          rw [integers, List.filterMap_nil, List.sum_nil, add_zero, htoFloat] at hfirst
          cases hfirst
        | some y =>
          refine (isSome_foldlM_float env).trans ?_
          constructor
          · intro h
            refine ⟨⟨rfl, fun v hv => (h v hv).1⟩, fun before x' after hsplit hbefore => ?_⟩
            cases before with
            | nil =>
              obtain ⟨-, rfl⟩ := List.cons.inj hsplit
              refine ⟨?_, fun v hv => (h v hv).2⟩
              rw [integers, List.filterMap_nil, List.sum_nil, add_zero, htoFloat]
              rfl
            | cons u before =>
              -- the first float is the first item
              obtain ⟨rfl, -⟩ := List.cons.inj hsplit
              exact absurd (hbefore _ List.mem_cons_self) (by simp [JsonValue.integer?])
          · intro h v hv
            exact ⟨h.1.2 v hv, (h.2 [] x vs rfl (by simp)).2 v hv⟩

/-- **Which numbers of alerts can be added.** -/
theorem isSome_sum {vs : List JsonValue} : (env.sum vs).isSome = true ↔ Summable env vs := by
  rw [AnswerEnv.sum, isSome_foldlM_int]
  simp only [zero_add]
  exact ⟨fun h => ⟨h.1, h.2⟩, fun h => ⟨h.numbers, h.floats⟩⟩

lemma foldlM_float_eq {x : JsonFloat} {vs : List JsonValue} {total : JsonValue}
    (h : vs.foldlM env.plus (.float x) = some total) : ∃ y, total = .float y := by
  induction vs generalizing x with
  | nil => exact ⟨x, (Option.some.inj h).symm⟩
  | cons v vs ih =>
    obtain ⟨w, hw, h⟩ := Option.bind_eq_some_iff.mp h
    obtain ⟨y, rfl⟩ := plus_float_eq env hw
    exact ih h

lemma foldlM_int_eq {n : ℤ} {vs : List JsonValue} {total : JsonValue}
    (h : vs.foldlM env.plus (.int n) = some total) :
    total = .int (n + integers vs) ∧ (∀ v ∈ vs, v.integer?.isSome = true) ∨
      (∃ x, total = .float x) ∧ ∃ v ∈ vs, v.integer?.isSome = false := by
  induction vs generalizing n with
  | nil => exact .inl ⟨by simpa [integers] using (Option.some.inj h).symm, by simp⟩
  | cons v vs ih =>
    obtain ⟨w, hw, h⟩ := Option.bind_eq_some_iff.mp h
    cases hinteger : v.integer? with
    | some k =>
      rw [plus_integer env hinteger] at hw
      obtain rfl := Option.some.inj hw
      rcases ih h with ⟨htotal, hall⟩ | ⟨htotal, u, hu, hother⟩
      · refine .inl ⟨?_, List.forall_mem_cons.mpr ⟨by rw [hinteger]; rfl, hall⟩⟩
        rw [htotal, integers, integers, List.filterMap_cons_some hinteger, List.sum_cons, add_assoc]
      · exact .inr ⟨htotal, u, List.mem_cons_of_mem _ hu, hother⟩
    | none =>
      obtain ⟨x, rfl⟩ : ∃ x, w = .float x := by
        have hplus : env.plus (.int n) v = (env.asFloat (.int n) >>= fun x =>
            env.asFloat v >>= fun y => some (JsonValue.float (env.addFloat x y))) := by
          rw [AnswerEnv.plus, hinteger]
          rfl
        rw [hplus] at hw
        obtain ⟨x', -, hw⟩ := Option.bind_eq_some_iff.mp hw
        obtain ⟨y, -, hw⟩ := Option.bind_eq_some_iff.mp hw
        exact ⟨_, (Option.some.inj hw).symm⟩
      exact .inr ⟨foldlM_float_eq env h, v, List.mem_cons_self, by rw [hinteger]; rfl⟩

/-- A sum is the one of the integers, or a float if there is anything else. -/
lemma sum_eq {vs : List JsonValue} {total : JsonValue} (h : env.sum vs = some total) :
    total = .int (integers vs) ∧ (∀ v ∈ vs, v.integer?.isSome = true) ∨
      (∃ x, total = .float x) ∧ ∃ v ∈ vs, v.integer?.isSome = false := by
  have hsum := foldlM_int_eq env h
  rwa [zero_add] at hsum

/-! ## The buckets of the rules -/

/-- `dotted` in nested objects; it may also be a key itself. -/
def digFrom (dotted : CodeText) : List CodeText → JsonValue → JsonValue
  | [], v => v
  | part :: parts, v =>
    if v.hasKey dotted then v.entry dotted else digFrom dotted parts (v.entry part)

/-- What a source says at a path (`_dig`). -/
def dig (source : JsonValue) (dotted : CodeText) : JsonValue :=
  digFrom dotted (dotted.splitOn 46) source

/-- A rule that fired, as a check reports it. -/
structure RuleRow where
  id : CodeText
  name : JsonValue
  level : JsonValue
  technique : JsonValue
  count : JsonValue
  expected : Bool

/-- `(sample.hits.hits or [{}])[0]` -/
def hit (bucket : JsonValue) : Option JsonValue := do
  let sample ← bucket.get (lit "sample")
  let hits ← sample.orEmpty.get (lit "hits")
  let found ← hits.orEmpty.get (lit "hits")
  if found.truthy then found.head else some (.dict [])

/-- A rule (`expected` are the rules that should fire, with their names). -/
def ruleRow (b : Backend) (expected : List (CodeText × CodeText)) (bucket : JsonValue) :
    Option RuleRow := do
  let hit ← hit bucket
  let source ← hit.get (lit "_source")
  let id ← strItem F env "key" bucket
  let count ← bucket.item (lit "doc_count")
  let name := dig source.orEmpty b.ruleName
  return {
    id
    name := if name.truthy then name else .str ((expected.lookup id).getD [])
    level := dig source.orEmpty b.level
    technique := dig source.orEmpty b.technique
    count
    expected := (expected.lookup id).isSome }

/-- The first hit, if there is one, is an object. -/
def hitShape (bucket : JsonValue) : Bool :=
  let hits := (bucket.entry (lit "sample")).entry (lit "hits")
  (bucket.entry (lit "sample")).objectOrFalsy && hits.objectOrFalsy &&
    (!(hits.entry (lit "hits")).truthy ||
      ((hits.entry (lit "hits")).head.getD .null).isObject)

def ruleShape (bucket : JsonValue) : Bool :=
  hitShape bucket && strShape env "key" bucket && bucket.hasKey (lit "doc_count")

lemma isObject_of_hasKey {key : CodeText} {v : JsonValue} (h : v.hasKey key = true) :
    v.isObject = true := by
  cases v with
  | dict es => rfl
  | _ => cases h

/-- A hit that has a source to be read. -/
lemma isSome_source {bucket : JsonValue} (hobject : bucket.isObject = true) :
    (hit bucket >>= JsonValue.get (lit "_source")).isSome = hitShape bucket := by
  have hfound : ∀ found : JsonValue, ((if found.truthy then found.head else some (.dict [])) >>=
      JsonValue.get (lit "_source")).isSome =
        (!found.truthy || (found.head.getD .null).isObject) := by
    intro found
    cases found.truthy with
    | false => rfl
    | true =>
      cases found.head with
      | none => rfl
      | some v => exact (congrArg Option.isSome JsonValue.get_eq).trans isSome_returnIf
  rw [hit, JsonValue.get_eq, hobject]
  show (((bucket.entry (lit "sample")).orEmpty.get (lit "hits") >>= fun hits =>
      hits.orEmpty.get (lit "hits") >>= fun found =>
        if found.truthy then found.head else some (.dict [])) >>=
      JsonValue.get (lit "_source")).isSome = _
  rw [JsonValue.get_orEmpty, bind_assoc, isSome_bind_returnIf, JsonValue.get_orEmpty, bind_assoc,
    isSome_bind_returnIf, hfound, hitShape, Bool.and_assoc]

lemma isSome_ruleRow (b : Backend) (expected : List (CodeText × CodeText)) (bucket : JsonValue) :
    (ruleRow F env b expected bucket).isSome = ruleShape env bucket := by
  have hrest : ∀ source : JsonValue, (do
      let id ← strItem F env "key" bucket
      let count ← bucket.item (lit "doc_count")
      let name := dig source.orEmpty b.ruleName
      return ({
        id
        name := if name.truthy then name else .str ((expected.lookup id).getD [])
        level := dig source.orEmpty b.level
        technique := dig source.orEmpty b.technique
        count
        expected := (expected.lookup id).isSome } : RuleRow)).isSome =
      (strShape env "key" bucket && bucket.hasKey (lit "doc_count")) := by
    intro source
    rw [strItem_eq, isSome_bind_returnIf, JsonValue.item_eq, isSome_bind_returnIf]
    exact congrArg _ (Bool.and_true _)
  rw [ruleRow, ← bind_assoc, isSome_bind_of_isSome hrest, ruleShape, Bool.and_assoc]
  cases hkey : bucket.hasKey (lit "doc_count") with
  | false => rw [Bool.and_false, Bool.and_false, Bool.and_false]
  | true => rw [isSome_source (isObject_of_hasKey hkey)]

/-! ## What was detected -/

/-- The rules that a profile should trigger, with their names (`EXPECTED`). -/
def expectedRules (siem : CodeText) (profileId : Option CodeText) : List (CodeText × CodeText) :=
  let rules : List (String × String) :=
    if siem ≠ lit "wazuh" then []
    else if profileId = some (lit "auth_bruteforce") then
      [("5710", "sshd: Attempt to login using a non-existent user"),
        ("5712", "sshd: brute force trying to get access to the system")]
    else if profileId = some (lit "web_attacks") then
      [("31103", "SQL injection attempt"), ("31104", "Common web attack"),
        ("31105", "XSS (Cross Site Scripting) attempt")]
    else if profileId = some (lit "malware_beacon") then [("4101", "Firewall drop event")]
    else if profileId = some (lit "lateral_movement") then
      [("5715", "sshd: authentication success"), ("5501", "PAM: Login session opened")]
    else if profileId = some (lit "data_exfiltration") then
      [("5402", "Successful sudo to ROOT executed")]
    else if profileId = some (lit "privilege_escalation") then
      [("5401", "Three failed attempts to run sudo"),
        ("5405", "Unauthorized user attempted to use sudo"),
        ("5302", "User missed the password to change UID to root")]
    else []
  rules.map fun r => (lit r.1, lit r.2)

/-- The rules are those of the rows that are meant. -/
lemma expectedRules_ids (siem profileId : CodeText) :
    (expectedRules siem (some profileId)).map Prod.fst = Detection.expectedRules siem profileId := by
  simp only [expectedRules, Detection.expectedRules, Option.some.injEq]
  split_ifs <;> rfl

/-- The median of some times. -/
def AnswerEnv.median (env : AnswerEnv) (xs : List ℚ) : ℚ :=
  let sorted := xs.insertionSort (· ≤ ·)
  let n := sorted.length
  if n % 2 = 1 then sorted.getD (n / 2) 0
  else env.nearest ((sorted.getD (n / 2 - 1) 0 + sorted.getD (n / 2) 0) / 2)

def number (q : ℚ) : JsonValue := .float (.finite q)

def textOrNull : Option CodeText → JsonValue
  | none => .null
  | some t => .str t

/-- The median and the largest of some times. -/
def AnswerEnv.spread (env : AnswerEnv) (xs : List ℚ) : JsonValue :=
  if xs = [] then .null
  else .dict [(lit "median", number (env.median xs)),
    (lit "max", number (xs.foldl max (xs.headD 0)))]

def Row.json (r : Row) : JsonValue :=
  .dict [(lit "name", .str r.name), (lit "alerts", r.alerts), (lit "detected", .bool r.detected),
    (lit "first_alert_at", textOrNull (r.firstAlertAt.map env.isoformat)),
    (lit "ttd_seconds", (r.ttdSeconds.map number).getD .null)]

def RuleRow.json (r : RuleRow) : JsonValue :=
  .dict [(lit "id", .str r.id), (lit "name", r.name), (lit "level", r.level),
    (lit "technique", r.technique), (lit "count", r.count), (lit "expected", .bool r.expected)]

/-- What is asked about a simulation. -/
structure Question extends Asked where
  siem : CodeText
  backend : Backend
  rules : List (CodeText × CodeText)
  finish : CodeText
  ids : expected = rules.map Prod.fst

/-- What was detected. -/
structure Found where
  detected : ℕ
  rate : ℚ
  alerts : JsonValue
  missed : List CodeText
  entries : JsonEntries

/-- What is said about the rows of the containers, the rules that fired and the number of alerts. -/
def report (q : Question) (perContainer : List Row) (rules : List RuleRow) (alerts : JsonValue) :
    Found :=
  let detected := perContainer.filter (·.detected)
  let rate := if q.containers = [] then 0
    else env.roundTenth (env.nearest (100 * detected.length / q.containers.length))
  let seen : List CodeText := rules.map (·.id)
  let missed := (q.rules.map Prod.fst).filter fun id => decide (id ∉ seen)
  { detected := detected.length
    rate
    alerts
    missed
    entries := [
      (lit "siem", .str q.siem),
      (lit "window", .dict [(lit "start", .str (env.isoformat q.start)),
        (lit "end", .str q.finish)]),
      (lit "containers", .int q.containers.length),
      (lit "detected", .int detected.length),
      (lit "detection_rate", number rate),
      (lit "ttd_seconds", env.spread (detected.filterMap (·.ttdSeconds))),
      (lit "alerts", alerts),
      (lit "rules", .list (rules.map RuleRow.json)),
      (lit "expected", .list (q.rules.map fun r => .dict [(lit "id", .str r.1),
        (lit "name", .str r.2), (lit "seen", .bool (decide (r.1 ∈ seen)))])),
      (lit "missed", .list (missed.map .str)),
      (lit "per_container", .list (perContainer.map (Row.json env))),
      (lit "basis", .str (lit (if q.rules = [] then "any alert" else "expected rules")))] }

/-- What an answer to a question is read as (`check`, without the events). -/
def analyse (q : Question) (payload : JsonValue) : Option Found := do
  let aggs ← payload.get (lit "aggregations")
  let hosts ← aggs.orEmpty.get (lit "hosts")
  let buckets ← hosts.orEmpty.getItems (lit "buckets")
  let rows ← tally F env q.toAsked buckets
  let rules ← aggs.orEmpty.get (lit "rules")
  let ruleBuckets ← rules.orEmpty.getItems (lit "buckets")
  let rules ← ruleBuckets.mapM (ruleRow F env q.backend q.rules)
  let perContainer := q.containers.eraseDups.map rows
  let alerts ← env.sum (perContainer.map (·.alerts))
  return report env q perContainer rules alerts

/-- The buckets of an answer. -/
def bucketsOf (name : String) (payload : JsonValue) : List JsonValue :=
  ((payload.entry (lit "aggregations")).entry (lit name)).itemsAt (lit "buckets")

/-- There are buckets of an answer, or none are given. -/
def bucketsShape (name : String) (payload : JsonValue) : Bool :=
  let part := (payload.entry (lit "aggregations")).entry (lit name)
  (payload.entry (lit "aggregations")).objectOrFalsy &&
    (part.objectOrFalsy && part.iterableAt (lit "buckets"))

/-- The counts of the containers. -/
def countsOf (q : Asked) (payload : JsonValue) : List JsonValue :=
  q.containers.eraseDups.map (countOf F env q (bucketsOf "hosts" payload))

/-- The shape that an answer needs. -/
structure AnswerShape (q : Asked) (payload : JsonValue) : Prop where
  object : payload.isObject = true
  hosts : bucketsShape "hosts" payload = true
  hostBuckets : ∀ b ∈ bucketsOf "hosts" payload, hostShape F env q b = true
  rules : bucketsShape "rules" payload = true
  ruleBuckets : ∀ b ∈ bucketsOf "rules" payload, ruleShape env b = true
  counts : Summable env (countsOf F env q payload)

/-- The buckets that are looped over. -/
lemma getBuckets_eq (name : String) (payload : JsonValue) :
    ((payload.entry (lit "aggregations")).orEmpty.get (lit name) >>= fun part =>
        part.orEmpty.getItems (lit "buckets")) =
      returnIf (bucketsShape name payload) (bucketsOf name payload) := by
  rw [JsonValue.get_orEmpty]
  exact bind_returnIf JsonValue.getItems_orEmpty

/-- The rows have the counts of the containers. -/
lemma map_tally_alerts {q : Asked} {payload : JsonValue} {rows : CodeText → Row}
    (h : tally F env q (bucketsOf "hosts" payload) = some rows) :
    (q.containers.eraseDups.map rows).map (·.alerts) = countsOf F env q payload := by
  rw [List.map_map, countsOf]
  exact List.map_congr_left fun name _ => tally_alerts F env h name

/-- An answer that is an object is read as its parts are. -/
lemma analyse_of_object {q : Question} {payload : JsonValue} (h : payload.isObject = true) :
    analyse F env q payload = (do
      let buckets ← returnIf (bucketsShape "hosts" payload) (bucketsOf "hosts" payload)
      let rows ← tally F env q.toAsked buckets
      let ruleBuckets ← returnIf (bucketsShape "rules" payload) (bucketsOf "rules" payload)
      let rules ← ruleBuckets.mapM (ruleRow F env q.backend q.rules)
      let perContainer := q.containers.eraseDups.map rows
      let alerts ← env.sum (perContainer.map (·.alerts))
      return report env q perContainer rules alerts) := by
  rw [analyse, JsonValue.get_eq, h, ← getBuckets_eq, ← getBuckets_eq, bind_assoc]
  simp only [bind_assoc]
  rfl

/-- **Which answers are read.** -/
theorem isSome_analyse (q : Question) (payload : JsonValue) :
    (analyse F env q payload).isSome = true ↔ AnswerShape F env q.toAsked payload := by
  cases hobject : payload.isObject with
  | false =>
    refine iff_of_false ?_ fun h => ?_
    · rw [analyse, JsonValue.get_eq, hobject]
      exact Bool.false_ne_true
    · rw [h.object] at hobject
      cases hobject
  | true =>
    rw [analyse_of_object F env hobject, isSome_bind_returnIf, Bool.and_eq_true]
    have hhosts := isSome_tally F env q.toAsked (bucketsOf "hosts" payload)
    cases htally : tally F env q.toAsked (bucketsOf "hosts" payload) with
    | none =>
      refine iff_of_false (fun h => absurd h.2 Bool.false_ne_true) fun h => ?_
      rw [htally, List.all_eq_true.mpr h.hostBuckets] at hhosts
      cases hhosts
    | some rows =>
      rw [htally] at hhosts
      show _ ∧ (returnIf (bucketsShape "rules" payload) (bucketsOf "rules" payload) >>= fun bs =>
        bs.mapM (ruleRow F env q.backend q.rules) >>= fun rules =>
          env.sum ((q.containers.eraseDups.map rows).map (·.alerts)) >>= fun alerts =>
            some (report env q _ rules alerts)).isSome = true ↔ _
      have hsum : ∀ rules : List RuleRow,
          (env.sum ((q.containers.eraseDups.map rows).map (·.alerts)) >>= fun alerts =>
            some (report env q (q.containers.eraseDups.map rows) rules alerts)).isSome =
              (env.sum (countsOf F env q.toAsked payload)).isSome := fun rules => by
        rw [map_tally_alerts F env htally]
        cases env.sum (countsOf F env q.toAsked payload) <;> rfl
      rw [isSome_bind_returnIf, isSome_bind_of_isSome hsum, isSome_mapM, Bool.and_eq_true,
        Bool.and_eq_true, isSome_sum, List.all_eq_true]
      simp only [isSome_ruleRow]
      constructor
      · rintro ⟨hshape, hrules, hruleBuckets, hcounts⟩
        exact ⟨hobject, hshape, List.all_eq_true.mp hhosts.symm, hrules, hruleBuckets, hcounts⟩
      · exact fun h => ⟨h.hosts, h.rules, h.ruleBuckets, h.counts⟩

lemma analyse_alerts {q : Question} {payload : JsonValue} {found : Found}
    (h : analyse F env q payload = some found) :
    env.sum (countsOf F env q.toAsked payload) = some found.alerts := by
  have hshape := (isSome_analyse F env q payload).mp (by rw [h]; rfl)
  rw [analyse_of_object F env hshape.object] at h
  obtain ⟨buckets, hbuckets, h⟩ := Option.bind_eq_some_iff.mp h
  obtain ⟨-, rfl⟩ := returnIf_eq_some_iff.mp hbuckets
  obtain ⟨rows, hrows, h⟩ := Option.bind_eq_some_iff.mp h
  obtain ⟨ruleBuckets, -, h⟩ := Option.bind_eq_some_iff.mp h
  obtain ⟨rules, -, h⟩ := Option.bind_eq_some_iff.mp h
  obtain ⟨alerts, halerts, h⟩ := Option.bind_eq_some_iff.mp h
  obtain rfl := Option.some.inj h
  rw [← map_tally_alerts F env hrows]
  exact halerts

/-! ## The events -/

/-- A number of hits, which may be given in an object. -/
def eventsOf (total : JsonValue) : JsonValue :=
  if total.isObject then
    if total.hasKey (lit "value") then total.entry (lit "value") else .int 0
  else total

/-- The events that a SIEM received (`_ingestion`, once there is an answer). -/
def ingested (start : Time) (payload : JsonValue) : Option JsonValue := do
  let aggs ← payload.get (lit "aggregations")
  let hosts ← aggs.orEmpty.get (lit "hosts")
  let buckets ← hosts.orEmpty.getItems (lit "buckets")
  let firsts ← buckets.mapM (first F env)
  let lags ← (firsts.filterMap id).mapM (env.secondsSince start)
  let hits ← payload.get (lit "hits")
  let total ← hits.orEmpty.get (lit "total")
  return .dict [(lit "events", eventsOf total.orEmpty),
    (lit "hosts_reporting", .int buckets.length),
    (lit "first_event_seconds", env.spread (lags.map fun s => max 0 s))]

/-- The shape that the answer about the events needs. -/
structure EventsShape (start : Time) (payload : JsonValue) : Prop where
  object : payload.isObject = true
  hosts : bucketsShape "hosts" payload = true
  firsts : ∀ b ∈ bucketsOf "hosts" payload, firstShape env b = true
  kinds : ∀ b ∈ bucketsOf "hosts" payload, ∀ t ∈ firstOf F env b, t.aware = start.aware
  hits : (payload.entry (lit "hits")).objectOrFalsy = true

lemma isSome_secondsSince {start t : Time} :
    (env.secondsSince start t).isSome = (t.aware == start.aware) := by
  rw [AnswerEnv.secondsSince]
  split_ifs with h
  · rw [h, beq_self_eq_true]
    rfl
  · exact (beq_eq_false_iff_ne.mpr h).symm

/-- **Which answers about the events are read.** -/
theorem isSome_ingested (start : Time) (payload : JsonValue) :
    (ingested F env start payload).isSome = true ↔ EventsShape F env start payload := by
  cases hobject : payload.isObject with
  | false =>
    refine iff_of_false ?_ fun h => ?_
    · rw [ingested, JsonValue.get_eq, hobject]
      exact Bool.false_ne_true
    · rw [h.object] at hobject
      cases hobject
  | true =>
    have htotal : ∀ lags : List ℚ, (do
        let hits ← payload.get (lit "hits")
        let total ← hits.orEmpty.get (lit "total")
        return JsonValue.dict [(lit "events", eventsOf total.orEmpty),
          (lit "hosts_reporting", .int (bucketsOf "hosts" payload).length),
          (lit "first_event_seconds", env.spread (lags.map fun s => max 0 s))]).isSome =
        (payload.entry (lit "hits")).objectOrFalsy := by
      intro lags
      rw [JsonValue.get_eq, hobject, isSome_bind_returnIf, JsonValue.get_orEmpty,
        isSome_bind_returnIf]
      exact (Bool.true_and _).trans (Bool.and_true _)
    rw [ingested, JsonValue.get_eq, hobject]
    show (((payload.entry (lit "aggregations")).orEmpty.get (lit "hosts") >>= fun hosts =>
      hosts.orEmpty.getItems (lit "buckets") >>= fun buckets =>
        buckets.mapM (first F env) >>= fun firsts =>
          (firsts.filterMap id).mapM (env.secondsSince start) >>= _).isSome) = true ↔ _
    rw [← bind_assoc, getBuckets_eq, isSome_bind_returnIf, mapM_returnIf (first_eq F env),
      isSome_bind_returnIf, isSome_bind_of_isSome htotal, isSome_mapM, Bool.and_eq_true,
      Bool.and_eq_true, Bool.and_eq_true, List.all_eq_true, List.all_eq_true]
    simp only [isSome_secondsSince, beq_iff_eq, List.mem_filterMap, List.mem_map, id]
    constructor
    · rintro ⟨hhosts, hfirsts, hkinds, hhits⟩
      exact ⟨hobject, hhosts, hfirsts, fun b hb t ht => hkinds t ⟨_, ⟨b, hb, rfl⟩, ht⟩, hhits⟩
    · intro h
      refine ⟨h.hosts, h.firsts, ?_, h.hits⟩
      rintro t ⟨_, ⟨b, hb, rfl⟩, ht⟩
      exact h.kinds b hb t ht

end Habeny.Simulations.Answer
