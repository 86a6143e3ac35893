import Habeny.Lib.Decimal
import Habeny.Lib.Dict
import Habeny.Lib.Exposition
import Mathlib.Algebra.Order.Ring.Rat
import Mathlib.Data.List.Sort

/-!
# Metrics

Counters, a histogram and gauges, as they are written for Prometheus.  Every series of a metric has
its labels; counters and histograms keep a value for each.

What is written is read back (`read_render`): the series with their labels, whatever the values of
these are, and every count that is a double.  The buckets of a histogram count the observations up
to their bounds (`observeAll_get`).
-/

namespace Habeny.Telemetry

open Habeny.Lib CodeText JsonText Exposition

/-! ## Labels -/

/-- `le` -/
def leName : CodeText := lit "le"

/-- The labels of a series.  None of the metrics has a label `le` of its own. -/
structure Labels where
  items : List (CodeText × CodeText)
  isLabelName : ∀ l ∈ items, isLabelName l.1 = true
  nodup : (items.map Prod.fst).Nodup
  noLe : leName ∉ items.map Prod.fst

lemma Labels.items_injective {a b : Labels} (h : a.items = b.items) : a = b := by
  cases a
  cases b
  cases h
  rfl

instance : DecidableEq Labels := fun a b =>
  decidable_of_iff (a.items = b.items) ⟨Labels.items_injective, fun h => h ▸ rfl⟩

/-- `sorted(labels.items())`, the names being different. -/
def sortedItems (items : List (CodeText × CodeText)) : List (CodeText × CodeText) :=
  items.insertionSort fun a b => a.1 ≤ b.1

lemma perm_sortedItems (items : List (CodeText × CodeText)) : (sortedItems items).Perm items :=
  List.perm_insertionSort _ items

lemma sortedItems_sortedItems (items : List (CodeText × CodeText)) :
    sortedItems (sortedItems items) = sortedItems items := by
  have htotal : Std.Total fun a b : CodeText × CodeText => a.1 ≤ b.1 :=
    ⟨fun a b => le_total a.1 b.1⟩
  have htrans : IsTrans (CodeText × CodeText) fun a b => a.1 ≤ b.1 :=
    ⟨fun _ _ _ => le_trans⟩
  exact List.Pairwise.insertionSort_eq (List.pairwise_insertionSort _ items)

namespace Labels

variable (l : Labels)

lemma isLabelName_sorted : ∀ x ∈ sortedItems l.items, Exposition.isLabelName x.1 = true :=
  fun x hx => l.isLabelName x ((perm_sortedItems l.items).mem_iff.mp hx)

lemma nodup_sorted : ((sortedItems l.items).map Prod.fst).Nodup :=
  ((perm_sortedItems l.items).map Prod.fst).nodup_iff.mpr l.nodup

lemma noLe_sorted : leName ∉ (sortedItems l.items).map Prod.fst :=
  fun h => l.noLe (((perm_sortedItems l.items).map Prod.fst).mem_iff.mp h)

/-- `tuple(sorted(labels.items()))` -/
def key : Labels where
  items := sortedItems l.items
  isLabelName := l.isLabelName_sorted
  nodup := l.nodup_sorted
  noLe := l.noLe_sorted

/-- `{**labels, 'le': value}` -/
def withLe (value : CodeText) : List (CodeText × CodeText) := l.items ++ [(leName, value)]

end Labels

/-! ## Writing -/

/-- `str.replace` of one character -/
def replaceChar (c : ℕ) (by' : CodeText) (t : CodeText) : CodeText :=
  t.flatMap fun x => if x = c then by' else [x]

/-- `_escape` -/
def escapeValue (value : CodeText) : CodeText :=
  replaceChar quotation [backslash, quotation]
    (replaceChar newline [backslash, code 'n']
      (replaceChar backslash [backslash, backslash] value))

/-- `_labels` -/
def labelsOf (labels : List (CodeText × CodeText)) : CodeText :=
  if labels = [] then []
  else
    lit "\x7b" ++ (lit ",").intercalate ((sortedItems labels).map fun l =>
      l.1 ++ lit "=\"" ++ escapeValue l.2 ++ lit "\"") ++ lit "\x7d"

/-- The floats of the language: how they are written and read, sums, and rounding to six digits. -/
structure Floats extends FloatText where
  add : JsonFloat → JsonFloat → JsonFloat
  round6 : JsonFloat → JsonFloat
  isFloat_double : ∀ n m : ℤ, double n = some m → isFloat m
  isFloat_round6 : ∀ x q, round6 x = .finite q → isFloat q

variable (F : Floats)

/-- The value of a sample: an integer, or a finite float. -/
inductive Value where
  | int (n : ℤ)
  | float (q : ℚ) (isFloat : F.isFloat q)

variable {F}

/-- `_num`; an integer that is too large for a float raises. -/
def num : Value F → Option CodeText
  | .int n =>
    if n.natAbs < 10 ^ 15 then some (intText n) else (double n).map fun (m : ℤ) => F.repr (m : ℚ)
  | .float q _ =>
    if q.den = 1 ∧ q.num.natAbs < 10 ^ 15 then some (intText q.num) else some (F.repr q)

/-- `repr` of a float -/
def floatRepr (F : Floats) : JsonFloat → CodeText
  | .finite q => F.repr q
  | .infinite false => lit "inf"
  | .infinite true => lit "-inf"
  | .nan => lit "nan"

/-- `f"{name}{_labels(labels)} {value}"` -/
def sampleLine (name : CodeText) (labels : List (CodeText × CodeText)) (value : CodeText) :
    CodeText :=
  name ++ labelsOf labels ++ lit " " ++ value

/-! ## Metrics -/

/-- The name of a metric and what is said about it. -/
structure Metric where
  name : CodeText
  help : CodeText
  isMetricName : isMetricName name = true
  isPlainHelp : isPlainHelp help = true

def Metric.header (m : Metric) (kind : CodeText) : List CodeText :=
  [lit "# HELP " ++ m.name ++ lit " " ++ m.help, lit "# TYPE " ++ m.name ++ lit " " ++ kind]

structure Counter where
  metric : Metric
  values : Dict Labels ℤ

namespace Counter

def inc (c : Counter) (amount : ℤ) (labels : Labels) : Counter :=
  { c with values := c.values.set labels.key ((c.values.get labels.key).getD 0 + amount) }

def render (F : Floats) (c : Counter) : Option (List CodeText) :=
  (c.values.items.mapM fun e => (num (F := F) (.int e.2)).map fun value =>
    sampleLine c.metric.name e.1.items value).map fun lines =>
      c.metric.header (lit "counter") ++ lines

end Counter

/-- `_gauge` -/
def gauge (m : Metric) (samples : List (Labels × Value F)) : Option (List CodeText) :=
  (samples.mapM fun e => (num e.2).map fun value => sampleLine m.name e.1.items value).map
    fun lines => m.header (lit "gauge") ++ lines

/-- The names of the metrics, and what is said about them. -/
def metricTexts : List (CodeText × CodeText) :=
  [(lit "habeny_http_requests_total", lit "HTTP requests handled, by method and status class"),
    (lit "habeny_http_request_duration_seconds", lit "Time to answer HTTP requests"),
    (lit "habeny_deployments_total",
      lit "Finished deployments by result (completed, partial, failed)"),
    (lit "habeny_containers_deployed_total",
      lit "Containers deployed, by result (success, failure)"),
    (lit "habeny_simulations_finished_total", lit "Finished simulations by status"),
    (lit "habeny_benchmarks_finished_total", lit "Finished benchmarks by status"),
    (lit "habeny_notifications_total",
      lit "Notifications by channel type and result (sent, failed)"),
    (lit "habeny_info", lit "Habeny version"),
    (lit "habeny_uptime_seconds", lit "Seconds since Habeny started"),
    (lit "habeny_lxc_up", lit "Whether LXC answered (1) or not (0)"),
    (lit "habeny_containers", lit "Containers by state"),
    (lit "habeny_deployments_running", lit "Deployments in progress"),
    (lit "habeny_simulations_running", lit "Simulations in progress"),
    (lit "habeny_disk_free_bytes", lit "Free disk space"),
    (lit "habeny_disk_size_bytes", lit "Disk size"),
    (lit "habeny_database_size_bytes", lit "Database size (with its write-ahead log)"),
    (lit "habeny_backups", lit "Full backups kept"),
    (lit "habeny_backup_last_timestamp_seconds", lit "When the newest full backup was taken"),
    (lit "habeny_alerts_active", lit "Active alerts (1 per alert)"),
    (lit "habeny_users", lit "User accounts"),
    (lit "habeny_sessions_active", lit "Signed-in browser sessions"),
    (lit "habeny_api_tokens", lit "API tokens"),
    (lit "habeny_host_load", lit "Host load average"),
    (lit "habeny_host_memory_bytes", lit "Host memory")]

/-- **The metrics are well formed.** -/
lemma metricTexts_valid :
    ∀ m ∈ metricTexts, isMetricName m.1 = true ∧ isPlainHelp m.2 = true := by
  decide +kernel

/-- The names of their labels. -/
def labelNames : List CodeText :=
  [lit "alert", lit "code", lit "kind", lit "method", lit "path", lit "period", lit "result",
    lit "severity", lit "state", lit "status", lit "target", lit "type", lit "version"]

lemma labelNames_valid :
    ∀ name ∈ labelNames, isLabelName name = true ∧ name ≠ leName := by
  decide +kernel

/-- A bound of a bucket: an integer, or the double that is written so. -/
inductive Bound where
  | int (n : ℤ)
  | double (mantissa : ℕ) (exponent : ℕ) (text : CodeText)

def Bound.value : Bound → ℚ
  | .int n => n
  | .double mantissa exponent _ => mantissa / 2 ^ exponent

/-- `_num(bound)` -/
def Bound.text : Bound → CodeText
  | .int n => intText n
  | .double _ _ text => text

/-- `BUCKETS` -/
def bucketBounds : List Bound :=
  [.double 5764607523034235 60 (lit "0.005"), .double 5764607523034235 59 (lit "0.01"),
    .double 3602879701896397 57 (lit "0.025"), .double 3602879701896397 56 (lit "0.05"),
    .double 3602879701896397 55 (lit "0.1"), .double 1 2 (lit "0.25"), .double 1 1 (lit "0.5"),
    .int 1, .double 5 1 (lit "2.5"), .int 5, .int 10, .int 30]

/-- `value <= bound` -/
def atMost (value : JsonFloat) (bound : Bound) : Bool :=
  match value with
  | .finite q => decide (q ≤ bound.value)
  | .infinite negative => negative
  | .nan => false

/-- The counts of the buckets, the sum of the observations and their number. -/
structure Series where
  buckets : List ℕ
  sum : JsonFloat
  count : ℕ

structure Histogram where
  metric : Metric
  series : Dict Labels Series

def emptySeries : Series where
  buckets := List.replicate bucketBounds.length 0
  sum := .finite 0
  count := 0

def Series.observe (F : Floats) (s : Series) (value : JsonFloat) : Series where
  buckets := bucketBounds.zipWith (fun bound n => if atMost value bound then n + 1 else n) s.buckets
  sum := F.add s.sum value
  count := s.count + 1

namespace Histogram

def observe (F : Floats) (h : Histogram) (value : JsonFloat) (labels : Labels) : Histogram :=
  { h with
    series := h.series.set labels.key
      (((h.series.get labels.key).getD emptySeries).observe F value) }

def renderSeries (F : Floats) (h : Histogram) (key : Labels) (s : Series) : List CodeText :=
  (bucketBounds.zipWith (fun bound n =>
    sampleLine (h.metric.name ++ lit "_bucket") (key.withLe bound.text) (decimal n)) s.buckets) ++
    [sampleLine (h.metric.name ++ lit "_bucket") (key.withLe (lit "+Inf")) (decimal s.count),
      sampleLine (h.metric.name ++ lit "_sum") key.items (floatRepr F (F.round6 s.sum)),
      sampleLine (h.metric.name ++ lit "_count") key.items (decimal s.count)]

def render (F : Floats) (h : Histogram) : List CodeText :=
  h.metric.header (lit "histogram") ++
    h.series.items.flatMap fun e => h.renderSeries F e.1 e.2

end Histogram

variable (F) in
/-- A metric with what is recorded. -/
inductive Family where
  | counter (c : Counter)
  | gauge (m : Metric) (samples : List (Labels × Value F))
  | histogram (h : Histogram)

def Family.lines : Family F → Option (List CodeText)
  | .counter c => c.render F
  | .gauge m samples => Telemetry.gauge m samples
  | .histogram h => some (h.render F)

/-- `"\n".join(lines) + "\n"` -/
def joinLines (lines : List CodeText) : CodeText := (lit "\n").intercalate lines ++ lit "\n"

/-- **The whole exposition.** -/
def render (families : List (Family F)) : Option CodeText :=
  (families.mapM Family.lines).map fun lines => joinLines lines.flatten

/-! ## What is recorded -/

def Value.read : Value F → JsonFloat
  | .int n => .finite n
  | .float q _ => .finite q

def headerEntries (m : Metric) (kind : CodeText) : List Entry :=
  [.help m.name m.help, .type m.name kind]

/-- The samples of a series of a histogram. -/
def seriesEntries (F : Floats) (m : Metric) (key : Labels) (s : Series) : List Entry :=
  (bucketBounds.zipWith (fun bound (n : ℕ) => Entry.sample
    { name := m.name ++ lit "_bucket", labels := sortedItems (key.withLe bound.text),
      value := .finite n }) s.buckets) ++
    [.sample
      { name := m.name ++ lit "_bucket", labels := sortedItems (key.withLe (lit "+Inf")),
        value := .finite s.count },
      .sample
        { name := m.name ++ lit "_sum", labels := sortedItems key.items,
          value := F.round6 s.sum },
      .sample
        { name := m.name ++ lit "_count", labels := sortedItems key.items,
          value := .finite s.count }]

/-- What a metric has recorded: its series with their labels, by the names of these. -/
def Family.entries : Family F → List Entry
  | .counter c =>
    headerEntries c.metric (lit "counter") ++ c.values.items.map fun e =>
      Entry.sample { name := c.metric.name, labels := sortedItems e.1.items, value := .finite e.2 }
  | .gauge m samples =>
    headerEntries m (lit "gauge") ++ samples.map fun e =>
      Entry.sample { name := m.name, labels := sortedItems e.1.items, value := e.2.read }
  | .histogram h =>
    headerEntries h.metric (lit "histogram") ++ h.series.items.flatMap fun e =>
      seriesEntries F h.metric e.1 e.2

/-- A count is a double. -/
def IsDouble (n : ℤ) : Prop := double n = some n

/-- Every count of a metric is a double. -/
def Family.CountsAreDoubles : Family F → Prop
  | .counter c => ∀ e ∈ c.values.items, IsDouble e.2
  | .gauge _ samples => ∀ e ∈ samples, ∀ n, e.2 = .int n → IsDouble n
  | .histogram h => ∀ e ∈ h.series.items, IsDouble e.2.count ∧ ∀ n ∈ e.2.buckets, IsDouble n

/-! ## What is written is read back -/

lemma escapeValue_eq (value : CodeText) : escapeValue value = Exposition.escape value := by
  rw [escapeValue, replaceChar, replaceChar, replaceChar, List.flatMap_assoc, List.flatMap_assoc,
    Exposition.escape]
  congr 1
  funext c
  by_cases hback : c = backslash
  · rw [hback]
    rfl
  · by_cases hline : c = newline
    · rw [hline]
      rfl
    · by_cases hquote : c = quotation
      · rw [hquote]
        rfl
      · simp [escapeChar, hback, hline, hquote]

lemma sortedItems_eq_nil {labels : List (CodeText × CodeText)} :
    sortedItems labels = [] ↔ labels = [] := by
  rw [← List.length_eq_zero_iff, (perm_sortedItems labels).length_eq, List.length_eq_zero_iff]

/-- Labels as they are written in the format. -/
lemma intercalate_labels {labels : List (CodeText × CodeText)} (h : labels ≠ []) :
    (lit ",").intercalate (labels.map fun l =>
      l.1 ++ lit "=\"" ++ escapeValue l.2 ++ lit "\"") ++ lit "\x7d" = labelsText labels := by
  have hlabel : ∀ l : CodeText × CodeText,
      l.1 ++ lit "=\"" ++ escapeValue l.2 ++ lit "\"" = labelText l := by
    intro l
    rw [escapeValue_eq, labelText, List.append_assoc, List.append_assoc]
    rfl
  simp only [hlabel]
  induction labels with
  | nil => exact absurd rfl h
  | cons l ls ih =>
    cases ls with
    | nil =>
      rw [List.map_singleton, List.intercalate_singleton]
      rfl
    | cons l' ls =>
      have htext : labelsText (l :: l' :: ls) =
          labelText l ++ code ',' :: labelsText (l' :: ls) := rfl
      rw [htext, ← ih (by simp), List.map_cons, List.map_cons, List.intercalate_cons_cons,
        List.append_assoc, List.append_assoc]
      rfl

lemma sampleLine_eq (name : CodeText) (labels : List (CodeText × CodeText)) (value : CodeText) :
    sampleLine name labels value = seriesText name (sortedItems labels) ++ 32 :: value := by
  have hblank : lit " " ++ value = 32 :: value := rfl
  rw [sampleLine, List.append_assoc, hblank, labelsOf, seriesText]
  by_cases hnone : labels = []
  · rw [if_pos hnone, if_pos (sortedItems_eq_nil.mpr hnone), List.append_nil]
  · have hsorted : sortedItems labels ≠ [] := fun h => hnone (sortedItems_eq_nil.mp h)
    rw [if_neg hnone, if_neg hsorted, List.append_assoc (lit "\x7b"), intercalate_labels hsorted]
    rfl

section Values

lemma isValueText_decimal {G : FloatText} {n : ℕ} (h : IsDouble n) :
    IsValueText G (decimal n) (.finite n) :=
  isValueText_intText (n := n) h

/-- The value of a sample is read back. -/
lemma isValueText_num (v : Value F) (h : ∀ n, v = .int n → IsDouble n) :
    ∃ w, num v = some w ∧ IsValueText F.toFloatText w v.read := by
  cases v with
  | int n =>
    have hn : double n = some n := h n rfl
    simp only [num]
    split
    · exact ⟨_, rfl, isValueText_intText hn⟩
    · refine ⟨F.repr n, by rw [hn]; rfl, ?_⟩
      exact isValueText_repr (F.isFloat_double n n hn)
  | float q hq =>
    simp only [num]
    split
    · next hwhole =>
      have hdouble : double q.num = some q.num :=
        double_of_le (hwhole.2.le.trans (by decide))
      have hq : ((q.num : ℤ) : ℚ) = q := (Rat.den_eq_one_iff q).mp hwhole.1
      refine ⟨_, rfl, ?_⟩
      have hvalue := isValueText_intText (F := F.toFloatText) hdouble
      rwa [hq] at hvalue
    · exact ⟨_, rfl, isValueText_repr hq⟩

lemma isValueText_floatRepr (x : JsonFloat) (h : ∀ q, x = .finite q → F.isFloat q) :
    IsValueText F.toFloatText (floatRepr F x) x := by
  cases x with
  | finite q => exact isValueText_repr (h q rfl)
  | infinite negative =>
    cases negative with
    | false =>
      show IsValueText F.toFloatText (lit "inf") _
      exact ⟨by decide, by decide, by decide, rfl⟩
    | true =>
      show IsValueText F.toFloatText (lit "-inf") _
      exact ⟨by decide, by decide, by decide, rfl⟩
  | nan =>
    show IsValueText F.toFloatText (lit "nan") _
    exact ⟨by decide, by decide, by decide, rfl⟩

end Values

/-- A line is one line, and is read as an entry. -/
def Reads (F : Floats) (line : CodeText) (e : Entry) : Prop :=
  newline ∉ line ∧ readLine F.toFloatText line = some (some e)

section Reads

variable {name w : CodeText} {labels : List (CodeText × CodeText)} {x : JsonFloat}

lemma reads_sampleLine (hname : isMetricName name = true)
    (hlabels : ∀ l ∈ labels, isLabelName l.1 = true) (h : IsValueText F.toFloatText w x) :
    Reads F (sampleLine name labels w)
      (.sample { name, labels := sortedItems labels, value := x }) := by
  have hsorted : ∀ l ∈ sortedItems labels, isLabelName l.1 = true :=
    fun l hl => hlabels l ((perm_sortedItems labels).mem_iff.mp hl)
  rw [sampleLine_eq]
  refine ⟨fun hmem => ?_, readLine_sample hname hsorted h⟩
  rw [List.mem_append, List.mem_cons] at hmem
  obtain hmem | hmem | hmem := hmem
  · exact newline_notMem_seriesText hname hsorted hmem
  · exact absurd hmem (by decide)
  · exact (h.noGap newline hmem).2 rfl

lemma reads_header (m : Metric) {kind : CodeText} (hkind : kind ∈ kinds) :
    List.Forall₂ (Reads F) (m.header kind) (headerEntries m kind) := by
  have hname := newline_notMem_metricName m.isMetricName
  have hhelp : newline ∉ m.help := by
    intro hmem
    have hplain := m.isPlainHelp
    rw [isPlainHelp, Bool.and_eq_true, List.all_eq_true] at hplain
    exact (of_decide_eq_true (hplain.2 newline hmem)).2 rfl
  have hkind' : newline ∉ kind := by
    have hall : ∀ k ∈ kinds, newline ∉ k := by decide
    exact hall kind hkind
  have hline : ∀ before rest : CodeText, before ++ m.name ++ lit " " ++ rest =
      before ++ (m.name ++ 32 :: rest) := by
    intro before rest
    simp [lit]
  have hwhole : ∀ before rest : CodeText, newline ∉ before → newline ∉ rest →
      newline ∉ before ++ (m.name ++ 32 :: rest) := by
    intro before rest hbefore hrest hmem
    rw [List.mem_append, List.mem_append, List.mem_cons] at hmem
    obtain hmem | hmem | hmem | hmem := hmem
    · exact hbefore hmem
    · exact hname hmem
    · exact absurd hmem (by decide)
    · exact hrest hmem
  rw [Metric.header, hline, hline]
  refine .cons ⟨hwhole _ _ (by decide) hhelp, ?_⟩ (.cons ⟨hwhole _ _ (by decide) hkind', ?_⟩ .nil)
  · exact readLine_help m.isMetricName m.isPlainHelp
  · exact readLine_type m.isMetricName hkind

/-- Lines that are written one by one. -/
lemma exists_mapM {α : Type} {f : α → Option CodeText} {g : α → Entry} {l : List α}
    (h : ∀ a ∈ l, ∃ line, f a = some line ∧ Reads F line (g a)) :
    ∃ lines, l.mapM f = some lines ∧ List.Forall₂ (Reads F) lines (l.map g) := by
  induction l with
  | nil => exact ⟨[], rfl, .nil⟩
  | cons a l ih =>
    obtain ⟨line, hline, hread⟩ := h a List.mem_cons_self
    obtain ⟨lines, hlines, hreads⟩ := ih fun b hb => h b (List.mem_cons_of_mem a hb)
    refine ⟨line :: lines, ?_, .cons hread hreads⟩
    rw [List.mapM_cons, hline, hlines]
    rfl

lemma forall₂_zipWith {α β : Type} {f : α → β → CodeText} {g : α → β → Entry} {as : List α}
    {bs : List β} (h : ∀ a, ∀ b ∈ bs, Reads F (f a b) (g a b)) :
    List.Forall₂ (Reads F) (as.zipWith f bs) (as.zipWith g bs) := by
  induction as generalizing bs with
  | nil => exact .nil
  | cons a as ih =>
    cases bs with
    | nil => exact .nil
    | cons b bs =>
      exact .cons (h a b List.mem_cons_self) (ih fun a b hb => h a b (List.mem_cons_of_mem _ hb))

lemma forall₂_flatMap {α : Type} {f : α → List CodeText} {g : α → List Entry} {l : List α}
    (h : ∀ a ∈ l, List.Forall₂ (Reads F) (f a) (g a)) :
    List.Forall₂ (Reads F) (l.flatMap f) (l.flatMap g) := by
  induction l with
  | nil => exact .nil
  | cons a l ih =>
    rw [List.flatMap_cons, List.flatMap_cons]
    exact List.rel_append (h a List.mem_cons_self) (ih fun b hb => h b (List.mem_cons_of_mem a hb))

lemma isLabelName_withLe (key : Labels) (value : CodeText) :
    ∀ l ∈ key.withLe value, isLabelName l.1 = true := by
  intro l hl
  obtain hl | hl := List.mem_append.mp hl
  · exact key.isLabelName l hl
  · rw [List.mem_singleton] at hl
    subst hl
    show isLabelName leName = true
    decide

/-- A series of a histogram is read back. -/
lemma reads_series (h : Histogram) (key : Labels) {s : Series} (hcount : IsDouble s.count)
    (hbuckets : ∀ n ∈ s.buckets, IsDouble n) :
    List.Forall₂ (Reads F) (h.renderSeries F key s) (seriesEntries F h.metric key s) := by
  have hsuffix : ∀ suffix : CodeText, (∀ c ∈ suffix, isMetricChar c = true) →
      isMetricName (h.metric.name ++ suffix) = true := by
    intro suffix hchars
    obtain ⟨c, t, hname, hc, hall⟩ := isMetricName_iff.mp h.metric.isMetricName
    refine isMetricName_iff.mpr ⟨c, t ++ suffix, by rw [hname]; rfl, hc, fun x hx => ?_⟩
    exact (List.mem_append.mp hx).elim (hall x) (hchars x)
  have hbucket := hsuffix (lit "_bucket") (by decide)
  unfold Histogram.renderSeries seriesEntries
  refine List.rel_append ?_ (.cons ?_ (.cons ?_ (.cons ?_ .nil)))
  · refine forall₂_zipWith fun bound n hn => ?_
    exact reads_sampleLine hbucket (isLabelName_withLe key _) (isValueText_decimal (hbuckets n hn))
  · exact reads_sampleLine hbucket (isLabelName_withLe key _) (isValueText_decimal hcount)
  · exact reads_sampleLine (hsuffix _ (by decide)) key.isLabelName
      (isValueText_floatRepr _ (F.isFloat_round6 s.sum))
  · exact reads_sampleLine (hsuffix _ (by decide)) key.isLabelName (isValueText_decimal hcount)

/-- The lines of a metric are read back. -/
lemma exists_lines (f : Family F) (h : f.CountsAreDoubles) :
    ∃ lines, f.lines = some lines ∧ List.Forall₂ (Reads F) lines f.entries := by
  cases f with
  | counter c =>
    obtain ⟨lines, hlines, hreads⟩ := exists_mapM (F := F) (l := c.values.items)
      (f := fun e => (num (F := F) (.int e.2)).map fun value =>
        sampleLine c.metric.name e.1.items value)
      (g := fun e => .sample
        { name := c.metric.name, labels := sortedItems e.1.items, value := .finite e.2 })
      (fun e he => by
        obtain ⟨w, hw, hvalue⟩ := isValueText_num (F := F) (.int e.2) fun n hn => by
          cases hn
          exact h e he
        exact ⟨_, by rw [hw]; rfl,
          reads_sampleLine c.metric.isMetricName e.1.isLabelName hvalue⟩)
    refine ⟨c.metric.header (lit "counter") ++ lines, ?_,
      List.rel_append (reads_header c.metric (by decide)) hreads⟩
    rw [Family.lines, Counter.render, hlines]
    rfl
  | gauge m samples =>
    obtain ⟨lines, hlines, hreads⟩ := exists_mapM (F := F) (l := samples)
      (f := fun e => (num e.2).map fun value => sampleLine m.name e.1.items value)
      (g := fun e => .sample
        { name := m.name, labels := sortedItems e.1.items, value := e.2.read })
      (fun e he => by
        obtain ⟨w, hw, hvalue⟩ := isValueText_num e.2 (h e he)
        exact ⟨_, by rw [hw]; rfl, reads_sampleLine m.isMetricName e.1.isLabelName hvalue⟩)
    refine ⟨m.header (lit "gauge") ++ lines, ?_,
      List.rel_append (reads_header m (by decide)) hreads⟩
    rw [Family.lines, Telemetry.gauge, hlines]
    rfl
  | histogram hist =>
    refine ⟨_, rfl, List.rel_append (reads_header hist.metric (by decide)) ?_⟩
    exact forall₂_flatMap fun e he => reads_series hist e.1 (h e he).1 (h e he).2

end Reads

lemma joinLines_eq {lines : List CodeText} (h : lines ≠ []) :
    joinLines lines = lines.flatMap fun line => line ++ [newline] := by
  have hline : lit "\n" = [newline] := rfl
  rw [joinLines, hline]
  induction lines with
  | nil => exact absurd rfl h
  | cons line lines ih =>
    cases lines with
    | nil => simp [List.intercalate_singleton]
    | cons line' lines =>
      rw [List.flatMap_cons, ← ih (by simp), List.intercalate_cons_cons, List.append_assoc,
        List.append_assoc]

/-- Joined lines are read back. -/
lemma read_joinLines {lines : List CodeText} {entries : List Entry}
    (h : List.Forall₂ (Reads F) lines entries) :
    read F.toFloatText (joinLines lines) = some entries := by
  cases h with
  | nil => rfl
  | cons hline hlines =>
    rw [joinLines_eq (List.cons_ne_nil _ _)]
    exact read_lines (.cons hline hlines)

/-- **What is written is read back**: from the whole exposition the series of all metrics with
their labels, if their counts are doubles. -/
lemma read_render (families : List (Family F)) (h : ∀ f ∈ families, f.CountsAreDoubles) :
    (render families).bind (read F.toFloatText) = some (families.flatMap Family.entries) := by
  obtain ⟨lines, hlines, hreads⟩ : ∃ lines, families.mapM Family.lines = some lines ∧
      List.Forall₂ (Reads F) lines.flatten (families.flatMap Family.entries) := by
    induction families with
    | nil => exact ⟨[], rfl, .nil⟩
    | cons f families ih =>
      obtain ⟨first, hfirst, hread⟩ := exists_lines f (h f List.mem_cons_self)
      obtain ⟨lines, hlines, hreads⟩ := ih fun g hg => h g (List.mem_cons_of_mem f hg)
      refine ⟨first :: lines, by rw [List.mapM_cons, hfirst, hlines]; rfl, ?_⟩
      rw [List.flatten_cons, List.flatMap_cons]
      exact List.rel_append hread hreads
  rw [render, hlines]
  exact read_joinLines hreads

/-! ## What is observed -/

/-- The observations of a series. -/
def seen (obs : List (JsonFloat × Labels)) (key : Labels) : List JsonFloat :=
  (obs.filter fun o => decide (o.2.key = key)).map Prod.fst

/-- Observations one after another. -/
def observeAll (F : Floats) (h : Histogram) (obs : List (JsonFloat × Labels)) : Histogram :=
  obs.foldl (fun h o => h.observe F o.1 o.2) h

/-- What a series keeps of observations. -/
def tally (F : Floats) (s : Series) (values : List JsonFloat) : Series :=
  values.foldl (fun s value => s.observe F value) s

/-- A series keeps what was observed in it. -/
lemma observeAll_get (h : Histogram) (obs : List (JsonFloat × Labels)) (key : Labels) :
    (observeAll F h obs).series.get key =
      if seen obs key = [] then h.series.get key
      else some (tally F ((h.series.get key).getD emptySeries) (seen obs key)) := by
  induction obs generalizing h with
  | nil => rfl
  | cons o obs ih =>
    rw [observeAll, List.foldl_cons]
    refine (ih (h.observe F o.1 o.2)).trans ?_
    by_cases hkey : o.2.key = key
    · have hseen : seen (o :: obs) key = o.1 :: seen obs key := by
        simp [seen, hkey]
      have hget : (h.observe F o.1 o.2).series.get key =
          some (((h.series.get key).getD emptySeries).observe F o.1) := by
        rw [← hkey]
        exact Dict.get_set_self
      rw [hseen, if_neg (List.cons_ne_nil _ _), hget]
      split_ifs with hnone
      · rw [hnone]
        rfl
      · rfl
    · have hseen : seen (o :: obs) key = seen obs key := by
        simp [seen, hkey]
      have hget : (h.observe F o.1 o.2).series.get key = h.series.get key :=
        Dict.get_set_of_ne (Ne.symm hkey)
      rw [hseen, hget]

/-- The buckets count the observations up to their bounds. -/
lemma tally_counts (counts : Bound → ℕ) (s : Series) (values : List JsonFloat)
    (h : s.buckets = bucketBounds.map counts) :
    (tally F s values).buckets =
        bucketBounds.map (fun bound => counts bound + values.countP fun v => atMost v bound) ∧
      (tally F s values).count = s.count + values.length := by
  induction values generalizing s counts with
  | nil => exact ⟨h, rfl⟩
  | cons v values ih =>
    have hstep : (s.observe F v).buckets =
        bucketBounds.map fun bound => counts bound + if atMost v bound then 1 else 0 := by
      show bucketBounds.zipWith _ s.buckets = _
      rw [h, List.zipWith_map_right, List.zipWith_self]
      refine List.map_congr_left fun bound _ => ?_
      split_ifs <;> rfl
    obtain ⟨hbuckets, hcount⟩ := ih _ (s.observe F v) hstep
    refine ⟨hbuckets.trans (List.map_congr_left fun bound _ => ?_), hcount.trans ?_⟩
    · rw [List.countP_cons]
      omega
    · show s.count + 1 + values.length = s.count + (v :: values).length
      rw [List.length_cons]
      omega

/-- The bounds grow. -/
lemma bounds_pairwise : bucketBounds.Pairwise fun b c => b.value ≤ c.value := by
  decide +kernel

lemma atMost_mono {b c : Bound} (h : b.value ≤ c.value) {v : JsonFloat} (hv : atMost v b = true) :
    atMost v c = true := by
  cases v with
  | finite q => exact decide_eq_true ((of_decide_eq_true hv).trans h)
  | infinite negative => exact hv
  | nan => cases hv

/-- Counters one after another. -/
def incAll (c : Counter) (incs : List (ℤ × Labels)) : Counter :=
  incs.foldl (fun c i => c.inc i.1 i.2) c

/-- The amounts of a series. -/
def amounts (incs : List (ℤ × Labels)) (key : Labels) : List ℤ :=
  (incs.filter fun i => decide (i.2.key = key)).map Prod.fst

/-- A counter keeps the sum of the amounts of a series. -/
lemma incAll_get (c : Counter) (incs : List (ℤ × Labels)) (key : Labels) :
    (incAll c incs).values.get key =
      if amounts incs key = [] then c.values.get key
      else some ((amounts incs key).foldl (· + ·) ((c.values.get key).getD 0)) := by
  induction incs generalizing c with
  | nil => rfl
  | cons i incs ih =>
    rw [incAll, List.foldl_cons]
    refine (ih (c.inc i.1 i.2)).trans ?_
    by_cases hkey : i.2.key = key
    · have hamounts : amounts (i :: incs) key = i.1 :: amounts incs key := by
        simp [amounts, hkey]
      have hget : (c.inc i.1 i.2).values.get key =
          some ((c.values.get key).getD 0 + i.1) := by
        rw [← hkey]
        exact Dict.get_set_self
      rw [hamounts, if_neg (List.cons_ne_nil _ _), hget]
      split_ifs with hnone
      · rw [hnone]
        rfl
      · rfl
    · have hamounts : amounts (i :: incs) key = amounts incs key := by
        simp [amounts, hkey]
      have hget : (c.inc i.1 i.2).values.get key = c.values.get key :=
        Dict.get_set_of_ne (Ne.symm hkey)
      rw [hamounts, hget]

/-- **The exposition is faithful.**  What is written is read back: every series of every metric,
whatever the values of its labels, with its counts, if these are doubles.  A counter has the sum of
what was added in each of its series, and a histogram counts in each bucket the observations up to
its bound; the counts grow from bucket to bucket, and none is beyond the number of all
observations, which is that of the bucket `+Inf`. -/
theorem exposition_faithful (F : Floats) :
    (∀ families : List (Family F), (∀ f ∈ families, f.CountsAreDoubles) →
      (render families).bind (read F.toFloatText) = some (families.flatMap Family.entries)) ∧
    (∀ (m : Metric) (incs : List (ℤ × Labels)) (key : Labels),
      (incAll ⟨m, .empty⟩ incs).values.get key =
        if amounts incs key = [] then none else some (amounts incs key).sum) ∧
    ∀ (m : Metric) (obs : List (JsonFloat × Labels)) (key : Labels) (s : Series),
      (observeAll F ⟨m, .empty⟩ obs).series.get key = some s →
      s.buckets = bucketBounds.map (fun bound => (seen obs key).countP fun v => atMost v bound) ∧
        s.count = (seen obs key).length ∧ s.buckets.Pairwise (· ≤ ·) ∧
        ∀ n ∈ s.buckets, n ≤ s.count := by
  refine ⟨read_render, fun m incs key => ?_, fun m obs key s hs => ?_⟩
  · rw [incAll_get, List.sum_eq_foldl]
    rfl
  · rw [observeAll_get] at hs
    split_ifs at hs with hnone
    · cases hs
    · rw [Option.some.injEq] at hs
      obtain ⟨hbuckets, hcount⟩ := tally_counts (F := F) (fun _ => 0) emptySeries (seen obs key) rfl
      simp only [Nat.zero_add] at hbuckets
      have hs' : tally F emptySeries (seen obs key) = s := hs
      rw [hs'] at hbuckets hcount
      have hcount : s.count = (seen obs key).length := hcount.trans (Nat.zero_add _)
      refine ⟨hbuckets, hcount, ?_, fun n hn => ?_⟩
      · rw [hbuckets, List.pairwise_map]
        refine bounds_pairwise.imp fun hle => ?_
        exact List.countP_mono_left fun v _ hv => atMost_mono hle hv
      · rw [hbuckets] at hn
        obtain ⟨bound, -, rfl⟩ := List.mem_map.mp hn
        rw [hcount]
        exact List.countP_le_length

/-! ## Whole floats -/

/-- A whole number with a fraction of zero. -/
def wholeText (q : ℚ) : CodeText := intText q.num ++ lit ".0"

def readWhole (t : CodeText) : JsonFloat :=
  .finite (Json.readInt ((t.takeWhile fun c => decide (c ≠ code '.')).map Char.ofNat))

lemma isFloatText_whole (q : ℚ) (_ : q.den = 1) : IsFloatText (wholeText q) :=
  ⟨intText q.num, lit ".0", [], isInteger_intText q.num,
    .inr ⟨lit "0", ⟨by decide, by decide⟩, rfl⟩, .inl rfl, .inl (by decide), by
      rw [wholeText, List.append_nil]⟩

lemma read_whole (q : ℚ) (hq : q.den = 1) : readWhole (wholeText q) = .finite q := by
  have hdot : ∀ c ∈ intText q.num, decide (c ≠ code '.') = true := by
    intro c hc
    refine decide_eq_true fun heq => ?_
    obtain ⟨digits, ⟨-, hdigits⟩, -, hor⟩ := isInteger_intText q.num
    subst heq
    have hmem : code '.' ∈ digits := by
      obtain h | h := hor
      · exact h ▸ hc
      · rw [h] at hc
        exact (List.mem_cons.mp hc).resolve_left (by decide)
    exact absurd (hdigits _ hmem) (by decide)
  have htake : (wholeText q).takeWhile (fun c => decide (c ≠ code '.')) = intText q.num := by
    have hlit : lit ".0" = code '.' :: lit "0" := rfl
    rw [wholeText, hlit]
    exact takeWhile_append_stop hdot (by decide)
  have hread : Json.readInt ((intText q.num).map Char.ofNat) = q.num := by
    rw [intText, List.map_map]
    exact (congrArg Json.readInt (List.map_id'' Char.ofNat_toNat _)).trans
      (Json.readInt_intText q.num)
  rw [readWhole, htake, hread, (Rat.den_eq_one_iff q).mp hq]

def addWhole : JsonFloat → JsonFloat → JsonFloat
  | .finite p, .finite q => .finite (p + q)
  | _, _ => .nan

def roundWhole : JsonFloat → JsonFloat
  | .finite q => .finite q.floor
  | x => x

lemma isFloat_double_whole (n m : ℤ) (_ : double n = some m) : (m : ℚ).den = 1 :=
  Rat.den_intCast m

lemma isFloat_round6_whole (x : JsonFloat) (q : ℚ) (h : roundWhole x = .finite q) :
    q.den = 1 := by
  cases x with
  | finite p =>
    cases h
    exact Rat.den_intCast _
  | infinite negative => cases h
  | nan => cases h

/-- Floats, of which only the whole ones are written. -/
def wholeFloats : Floats where
  isFloat := fun q => q.den = 1
  repr := wholeText
  read := readWhole
  isFloatText := isFloatText_whole
  read_repr := read_whole
  add := addWhole
  round6 := roundWhole
  isFloat_double := isFloat_double_whole
  isFloat_round6 := isFloat_round6_whole

/-- `HTTP_REQUESTS` -/
def httpRequests : Metric where
  name := lit "habeny_http_requests_total"
  help := lit "HTTP requests handled, by method and status class"
  isMetricName := (metricTexts_valid _ List.mem_cons_self).1
  isPlainHelp := (metricTexts_valid _ List.mem_cons_self).2

lemma isLabelName_method (v : CodeText) :
    ∀ l ∈ [(lit "method", v)], isLabelName l.1 = true :=
  List.forall_mem_singleton.mpr (labelNames_valid (lit "method") (by decide)).1

lemma nodup_method (v : CodeText) : ([(lit "method", v)].map Prod.fst).Nodup :=
  List.nodup_singleton _

lemma noLe_method (v : CodeText) : leName ∉ [(lit "method", v)].map Prod.fst :=
  fun h => (labelNames_valid (lit "method") (by decide)).2 (List.mem_singleton.mp h).symm

def methodLabel (v : CodeText) : Labels where
  items := [(lit "method", v)]
  isLabelName := isLabelName_method v
  nodup := nodup_method v
  noLe := noLe_method v

/-- A label whose value is a quote, a backslash and a newline, and a count of three. -/
theorem exposition_faithful_quote :
    (render (F := wholeFloats) [.counter (Counter.inc ⟨httpRequests, .empty⟩ 3
      (methodLabel [quotation, backslash, newline]))]).bind (read wholeFloats.toFloatText) =
      some [.help httpRequests.name httpRequests.help, .type httpRequests.name (lit "counter"),
        .sample { name := httpRequests.name,
                  labels := [(lit "method", [quotation, backslash, newline])],
                  value := .finite 3 }] := by
  refine (exposition_faithful wholeFloats).1 [.counter (Counter.inc ⟨httpRequests, .empty⟩ 3
    (methodLabel [quotation, backslash, newline]))] fun f hf => ?_
  obtain rfl := List.mem_singleton.mp hf
  intro e he
  obtain rfl := List.mem_singleton.mp he
  exact double_of_le (by decide)

/-- A count that is no double: 2^53 + 1 is written, and read, as 2^53. -/
theorem count_not_read_back :
    (render (F := wholeFloats) [.counter (Counter.inc ⟨httpRequests, .empty⟩ 9007199254740993
      (methodLabel (lit "GET")))]).bind (read wholeFloats.toFloatText) ≠
      some (Family.entries (F := wholeFloats) (.counter (Counter.inc ⟨httpRequests, .empty⟩
        9007199254740993 (methodLabel (lit "GET"))))) := by
  intro h
  have hline : Reads wholeFloats
      (sampleLine httpRequests.name (methodLabel (lit "GET")).items (wholeText 9007199254740992))
      (.sample
        { name := httpRequests.name, labels := sortedItems (methodLabel (lit "GET")).items,
          value := .finite 9007199254740992 }) :=
    reads_sampleLine httpRequests.isMetricName (methodLabel (lit "GET")).isLabelName
      (isValueText_repr (F := wholeFloats.toFloatText) (q := 9007199254740992) rfl)
  have hread := read_joinLines (List.rel_append
    (reads_header (F := wholeFloats) httpRequests (by decide : lit "counter" ∈ kinds))
    (List.Forall₂.cons hline .nil))
  have hrender : render (F := wholeFloats) [.counter (Counter.inc ⟨httpRequests, .empty⟩
      9007199254740993 (methodLabel (lit "GET")))] =
      some (joinLines (httpRequests.header (lit "counter") ++
        [sampleLine httpRequests.name (methodLabel (lit "GET")).items
          (wholeText 9007199254740992)])) := by
    have hdouble : double 9007199254740993 = some 9007199254740992 := by decide +kernel
    have hnum : num (F := wholeFloats) (.int 9007199254740993) =
        some (wholeText 9007199254740992) := by
      rw [num, if_neg (by decide), hdouble]
      rfl
    have hcounter : Counter.render wholeFloats (Counter.inc ⟨httpRequests, .empty⟩
        9007199254740993 (methodLabel (lit "GET"))) =
        ([((methodLabel (lit "GET")).key, (9007199254740993 : ℤ))].mapM fun e =>
          (num (F := wholeFloats) (.int e.2)).map fun value =>
            sampleLine httpRequests.name e.1.items value).map fun lines =>
              httpRequests.header (lit "counter") ++ lines := rfl
    rw [render, List.mapM_cons, Family.lines, hcounter, List.mapM_cons]
    simp only [hnum]
    rfl
  rw [hrender, Option.bind_some, hread] at h
  have hvalues := congrArg (fun r => r.map fun es => es.map fun
    | Entry.sample s => match s.value with
      | .finite q => q.num
      | _ => 0
    | _ => 0) h
  exact absurd hvalues (by decide +kernel)

end Habeny.Telemetry
