import Habeny.Agents.SeqIds
import Habeny.Lib.Dict
import Mathlib.Algebra.Order.Ring.Rat

/-!
# What is read of containers

A listing reads the containers one after the other: what LXC says of them, their rows, their
configuration, and the status file of those that run.  What it finds it writes back into their
rows, and a container without a row gets one then, with the next number.  So a listing fails when
another row has that number (`getAgentInfos_of_free`, `getAgentInfos_of_not_free`).
-/

namespace Habeny.Reports

open Habeny.Lib Habeny.Agents

/-! ## Containers -/

/-- What the status file of a container says. -/
structure StatusPayload where
  status : Value
  running : Value
  lastCheck : Value
  managerHost : Value
  managerPort : Value
  managerStatus : Value
  managerReachable : Value
  siemType : Option Text

/-- What comes of reading the status file: nothing, a text that is no JSON, JSON of another type
than an object, or an object. -/
inductive StatusFile where
  | missing
  | invalid
  | notObject (typeName : Text)
  | payload (p : StatusPayload)

/-- The exception that a value raises that is no dictionary. -/
def hasNoGet (typeName : Text) : Text :=
  "'".toList ++ typeName ++ "' object has no attribute 'get'".toList

/-- What LXC says of a container, and what is in it. -/
structure Container where
  state : Text
  running : Bool
  initPid : ℤ
  ips : List Text
  config : Option Text
  statusFile : StatusFile

/-- The dictionary that a listing makes of a container. -/
structure AgentInfo where
  agentName : Text
  agentSeqId : Option ℤ
  field : Column → Option Value

/-- `info.get(key) or default`, for a key whose value is a text. -/
def textOr (v : Option Value) (default : Text) : Text :=
  match v with
  | some (.text (c :: t)) => c :: t
  | _ => default

def count (d : Dict Text ℕ) (key : Text) : Dict Text ℕ := d.set key ((d.get key).getD 0 + 1)

/-- Count how often each text occurs. -/
def tally (keys : List Text) : Dict Text ℕ := keys.foldl count Dict.empty

/-! ## Reading a container -/

def Container.lifecycleStatus (c : Container) : Text :=
  if c.running then "running".toList else "stopped".toList

/-- What LXC says. -/
def Container.live (c : Container) : Column → Option Value
  | .lifecycleStatus => some (.text c.lifecycleStatus)
  | .state => some (.text c.state)
  | .initPid => some (.int c.initPid)
  | .ipAddresses => some (.list (if c.running then c.ips else []))
  | _ => none

/-- The columns that are shown as they are stored. -/
def shownColumns : List Column :=
  [.siemType, .siemIp, .siemVersion, .agentGroup, .osType, .createdAt, .siemAgentStatus,
   .siemAgentRunning, .siemAgentLastCheck, .managerHost, .managerPort, .managerStatus,
   .managerReachable, .syslogListener]

/-- The SIEMs whose names are looked for in a configuration. -/
def configSiems : List Text :=
  ["wazuh".toList, "ossec".toList, "ossim".toList, "utmstack".toList, "elastic".toList]

/-- What is known before the status file is read; `lower` is `str.lower`. -/
def Container.known (lower : Text → Text) (c : Container) (metadata : Metadata)
    (column : Column) : Option Value :=
  let content := lower (c.config.getD [])
  let siem := configSiems.find? fun t => Text.occursIn t content
  let stored := if column ∈ shownColumns then Requests.Metadata.get metadata column else none
  if column = .siemType then (siem.map .text).or stored
  else stored.or (c.live column)

/-- What is known once the status file has been read. -/
def StatusPayload.report (p : StatusPayload) (known : Column → Option Value) :
    Column → Option Value
  | .siemAgentStatus => some p.status
  | .siemAgentRunning => some p.running
  | .siemAgentLastCheck => some p.lastCheck
  | .managerHost => some p.managerHost
  | .managerPort => some p.managerPort
  | .managerStatus => some p.managerStatus
  | .managerReachable => some p.managerReachable
  | .siemType =>
    match p.siemType, textOr (known .siemType) [] with
    | some (c :: t), [] => some (.text (c :: t))
    | _, _ => known .siemType
  | column => known column

/-! ## Writing it back -/

/-- What SQLite says when a number is taken. -/
def uniqueFailed : Text := "UNIQUE constraint failed: agents.seq_id".toList

/-- `write_agent_metadata`, with its exception. -/
def save (t : Table) (name : Text) (metadata : Metadata) (now : Text) : Except Text Table :=
  if t.accepts name metadata now then .ok (t.write name metadata now) else .error uniqueFailed

/-- Some columns of what is known, as they are written: `None` where nothing is known. -/
def columnsOf (columns : List Column) (field : Column → Option Value) : Column → Option Value :=
  fun column => if column ∈ columns then some ((field column).getD .null) else none

def reportedMetadata (field : Column → Option Value) : Metadata where
  seqId := none
  agentSeqId := none
  field := columnsOf [.siemType, .siemAgentStatus, .siemAgentRunning, .siemAgentLastCheck,
    .managerHost, .managerPort, .managerStatus, .managerReachable] field

def liveMetadata (info : AgentInfo) : Metadata where
  seqId := none
  agentSeqId := some info.agentSeqId
  field := columnsOf [.lifecycleStatus, .state, .initPid, .ipAddresses] info.field

/-- What the status file adds, if the container runs; it is written at once. -/
def Container.readStatus (c : Container) (name now : Text) (known : Column → Option Value)
    (t : Table) : Except Text ((Column → Option Value) × Table) :=
  if c.running then
    match c.statusFile with
    | .missing | .invalid => .ok (known, t)
    | .notObject typeName => .error (hasNoGet typeName)
    | .payload p => (save t name (reportedMetadata (p.report known)) now).map (p.report known, ·)
  else .ok (known, t)

/-- Read a container, and write what was found. -/
def getAgentInfo (lower : Text → Text) (c : Container) (name now : Text) (t : Table) :
    Except Text (AgentInfo × Table) := do
  let metadata := readAgentMetadata t.store name
  let (field, t) ← c.readStatus name now (c.known lower metadata) t
  let info : AgentInfo := { agentName := name, agentSeqId := metadata.agentSeqId.join, field }
  let t ← save t name (liveMetadata info) now
  return (info, t)

/-- Read some containers, one after the other. -/
def getAgentInfos (lower : Text → Text) (container : Text → Container) (now : Text) :
    List Text → Table → Except Text (List AgentInfo × Table)
  | [], t => .ok ([], t)
  | name :: names, t => do
    let (info, t) ← getAgentInfo lower (container name) name now t
    let (infos, t) ← getAgentInfos lower container now names t
    return (info :: infos, t)

/-! ## When a listing fails -/

section Listing

variable {lower : Text → Text} {c : Container} {t t' t'' : Table} {name now : Text}

/-- A container has a row, or the next number is free. -/
def NumberFree (t : Table) (name : Text) : Prop :=
  t.store.rows name = none → t.taken name t.store.nextSeqId = false

/-- A container was written: it has a row then, with its own number or the next one. -/
structure Noted (t : Table) (name : Text) (t' : Table) : Prop where
  others : ∀ n ≠ name, t'.store.rows n = t.store.rows n
  row : ∃ row, t'.store.rows name = some row ∧
    row.seqId = (t.store.rows name).elim t.store.nextSeqId Row.seqId
  next : t'.store.nextSeqId =
    if t.store.rows name = none then t.store.nextSeqId + 1 else t.store.nextSeqId

lemma Noted.numberFree (h : Noted t name t') : NumberFree t' name := by
  obtain ⟨row, hrow, -⟩ := h.row
  intro hnone
  rw [hrow] at hnone
  exact absurd hnone (by simp)

lemma Noted.trans (h : Noted t name t') (h' : Noted t' name t'') : Noted t name t'' := by
  obtain ⟨row, hrow, hseq⟩ := h.row
  obtain ⟨row', hrow', hseq'⟩ := h'.row
  refine ⟨fun n hn => (h'.others n hn).trans (h.others n hn), ⟨row', hrow', ?_⟩, ?_⟩
  · rw [hseq', hrow, Option.elim_some, hseq]
  · rw [h'.next, hrow, if_neg (by simp), h.next]

lemma save_of_row {row : Row} {metadata : Metadata} (hrow : t.store.rows name = some row)
    (hseq : metadata.seqId = none) : ∃ t', save t name metadata now = .ok t' ∧ Noted t name t' := by
  have hnumber : t.numberToWrite name metadata = some row.seqId := by
    simp [Table.numberToWrite, Table.numberOf, readAgentMetadata, hrow, Metadata.override, hseq]
  have hfree := Table.taken_own hrow
  have haccepts : t.accepts name metadata now = true := by
    simp only [Table.accepts, hnumber, hfree, Bool.not_false]
  refine ⟨t.write name metadata now, by rw [save, if_pos haccepts], ?_⟩
  rw [Table.write_of_some hrow, show Table.numberFor metadata row = row.seqId by
    rw [Table.numberFor, hseq]; rfl, Table.upsert_of_free hfree, Option.getD_some]
  refine ⟨fun n hn => Function.update_of_ne hn _ _, ⟨_, Function.update_self .., ?_⟩, ?_⟩
  · rw [hrow]
    rfl
  · rw [hrow]
    rfl

lemma save_of_free {metadata : Metadata} (hrow : t.store.rows name = none)
    (hnumber : Table.numberOf metadata = none)
    (hfree : t.taken name t.store.nextSeqId = false) :
    ∃ t', save t name metadata now = .ok t' ∧ Noted t name t' := by
  have hnone : t.numberToWrite name metadata = none := by
    rwa [Table.numberToWrite, Table.readAgentMetadata_of_none hrow, Table.empty_override]
  have haccepts : t.accepts name metadata now = true := by
    simp only [Table.accepts, hnone, Table.getOrCreate, hrow]
    rw [dif_pos (by simpa [newRow] using hfree)]
    rfl
  obtain ⟨t', hwrite, hrows, hnext, -⟩ := Table.write_new hrow hnumber hfree now
  have hself := Function.update_self name (some ((newRow t.store.nextSeqId now).overwrite
    metadata.field)) t.store.rows
  refine ⟨t', by rw [save, if_pos haccepts, hwrite], fun n hn => ?_,
    ⟨_, (congrFun hrows name).trans hself, ?_⟩, ?_⟩
  · rw [hrows, Function.update_of_ne hn]
  · rw [hrow]
    rfl
  · rw [hnext, if_pos hrow]

lemma save_of_taken {metadata : Metadata} (hrow : t.store.rows name = none)
    (hnumber : Table.numberOf metadata = none)
    (htaken : t.taken name t.store.nextSeqId = true) :
    save t name metadata now = .error uniqueFailed := by
  have hnone : t.numberToWrite name metadata = none := by
    rwa [Table.numberToWrite, Table.readAgentMetadata_of_none hrow, Table.empty_override]
  have haccepts : t.accepts name metadata now = false := by
    simp only [Table.accepts, hnone, Table.getOrCreate, hrow]
    rw [dif_neg (by simpa [newRow] using htaken)]
    rfl
  rw [save, if_neg (by simp [haccepts])]

/-- What a listing says of a container, if nothing goes wrong with its number. -/
def readInfo (lower : Text → Text) (c : Container) (name : Text) (metadata : Metadata) :
    Except Text AgentInfo :=
  let known := c.known lower metadata
  let info field : AgentInfo := { agentName := name, agentSeqId := metadata.agentSeqId.join, field }
  if c.running then
    match c.statusFile with
    | .missing | .invalid => .ok (info known)
    | .notObject typeName => .error (hasNoGet typeName)
    | .payload p => .ok (info (p.report known))
  else .ok (info known)

/-- A status file is not JSON that is no object, if it is read. -/
def Container.readable (c : Container) : Bool :=
  !c.running || match c.statusFile with
    | .notObject _ => false
    | .missing | .invalid | .payload _ => true

lemma numberOf_reported (field : Column → Option Value) :
    Table.numberOf (reportedMetadata field) = none := rfl

/-- Either write of a listing succeeds when the number is free. -/
lemma save_of_numberFree {metadata : Metadata} (hfree : NumberFree t name)
    (hseq : metadata.seqId = none)
    (hnumber : t.store.rows name = none → Table.numberOf metadata = none) :
    ∃ t', save t name metadata now = .ok t' ∧ Noted t name t' := by
  cases hrow : t.store.rows name with
  | some row => exact save_of_row hrow hseq
  | none => exact save_of_free hrow (hnumber hrow) (hfree hrow)

lemma agentSeqId_of_none (hrow : t.store.rows name = none) :
    (readAgentMetadata t.store name).agentSeqId = none := by
  rw [Table.readAgentMetadata_of_none hrow]
  rfl

/-- The number that the last write brings is the row's own. -/
lemma numberOf_live {field : Column → Option Value} (hrow : t.store.rows name = none) :
    Table.numberOf (liveMetadata
      { agentName := name, agentSeqId := (readAgentMetadata t.store name).agentSeqId.join,
        field }) = none := by
  rw [agentSeqId_of_none hrow]
  rfl

/-- **Reading a container whose number is free.** -/
lemma getAgentInfo_of_free (lower : Text → Text) (c : Container) (now : Text)
    (hfree : NumberFree t name) :
    ∃ t', (c.readable = true → Noted t name t') ∧ getAgentInfo lower c name now t =
      (readInfo lower c name (readAgentMetadata t.store name)).map (·, t') := by
  have hplain : ∀ field, ∃ t', save t name (liveMetadata ⟨name,
      (readAgentMetadata t.store name).agentSeqId.join, field⟩) now = .ok t' ∧ Noted t name t' :=
    fun field => save_of_numberFree hfree rfl numberOf_live
  unfold getAgentInfo readInfo Container.readStatus Container.readable
  cases hrunning : c.running with
  | false =>
    obtain ⟨t', hsave, hnoted⟩ := hplain (c.known lower (readAgentMetadata t.store name))
    exact ⟨t', fun _ => hnoted, by simp [hsave, Except.map, bind, Except.bind, pure, Except.pure]⟩
  | true =>
    cases c.statusFile with
    | missing | invalid =>
      obtain ⟨t', hsave, hnoted⟩ := hplain (c.known lower (readAgentMetadata t.store name))
      exact ⟨t', fun _ => hnoted,
        by simp [hsave, Except.map, bind, Except.bind, pure, Except.pure]⟩
    | notObject typeName => exact ⟨t, by simp, by simp [Except.map, bind, Except.bind]⟩
    | payload p =>
      dsimp only
      generalize p.report (c.known lower (readAgentMetadata t.store name)) = field
      obtain ⟨t', hsave, hnoted⟩ : ∃ t', save t name (reportedMetadata field) now = .ok t' ∧
          Noted t name t' := save_of_numberFree hfree rfl fun _ => rfl
      obtain ⟨t'', hsave', hnoted'⟩ : ∃ t'', save t' name (liveMetadata ⟨name,
          (readAgentMetadata t.store name).agentSeqId.join, field⟩) now = .ok t'' ∧
          Noted t' name t'' := by
        obtain ⟨row, hrow, -⟩ := hnoted.row
        exact save_of_row hrow rfl
      exact ⟨t'', fun _ => hnoted.trans hnoted', by
        simp [hsave, hsave', Except.map, bind, Except.bind, pure, Except.pure]⟩

/-- **Reading a container whose number is taken fails**, if nothing else does before. -/
lemma getAgentInfo_of_not_free (hfree : ¬NumberFree t name) (hreadable : c.readable = true) :
    getAgentInfo lower c name now t = .error uniqueFailed := by
  obtain ⟨hrow, htaken⟩ := not_forall.mp hfree
  rw [Bool.not_eq_false] at htaken
  have hplain : ∀ field, save t name (liveMetadata ⟨name,
      (readAgentMetadata t.store name).agentSeqId.join, field⟩) now = .error uniqueFailed :=
    fun field => save_of_taken hrow (numberOf_live hrow) htaken
  unfold getAgentInfo Container.readStatus
  unfold Container.readable at hreadable
  cases hrunning : c.running with
  | false => simp [hplain, bind, Except.bind]
  | true =>
    rw [hrunning] at hreadable
    cases hfile : c.statusFile with
    | missing | invalid => simp [hplain, bind, Except.bind]
    | notObject typeName => simp [hfile] at hreadable
    | payload p =>
      simp [save_of_taken hrow (numberOf_reported _) htaken, bind, Except.bind, Except.map]

/-! ### All of them -/

variable {container : Text → Container} {names : List Text}

/-- What a listing says of some containers, if nothing goes wrong with their numbers. -/
def readInfos (lower : Text → Text) (container : Text → Container) (t : Table)
    (names : List Text) : Except Text (List AgentInfo) :=
  names.mapM fun n => readInfo lower (container n) n (readAgentMetadata t.store n)

lemma readInfos_cons (lower : Text → Text) (container : Text → Container) (t : Table)
    (name : Text) (names : List Text) : readInfos lower container t (name :: names) =
      readInfo lower (container name) name (readAgentMetadata t.store name) >>= fun info =>
        (readInfos lower container t names).map (info :: ·) := by
  rw [readInfos, List.mapM_cons]
  rfl

/-- The containers that a listing gives rows: up to the first one that it cannot read. -/
def newcomers (container : Text → Container) (t : Table) (names : List Text) : List Text :=
  (names.takeWhile fun n => (container n).readable).filter fun n => (t.store.rows n).isNone

/-- The next numbers are free. -/
def NumbersFree (t : Table) (k : ℕ) : Prop :=
  ∀ i < k, ∀ n row, t.store.rows n = some row → row.seqId ≠ t.store.nextSeqId + i

lemma numbersFree_zero : NumbersFree t 0 := fun _ hi => absurd hi (Nat.not_lt_zero _)

/-- A container that had a row leaves the free numbers. -/
lemma Noted.numbersFree_of_row (h : Noted t name t') {row : Row}
    (hrow : t.store.rows name = some row) (k : ℕ) : NumbersFree t' k ↔ NumbersFree t k := by
  obtain ⟨row', hrow', hseq⟩ := h.row
  rw [hrow, Option.elim_some] at hseq
  have hnext : t'.store.nextSeqId = t.store.nextSeqId := by
    rw [h.next, if_neg (by simp [hrow])]
  unfold NumbersFree
  rw [hnext]
  refine forall₂_congr fun i _ => ⟨fun hfree n r hr => ?_, fun hfree n r hr => ?_⟩
  · by_cases hn : n = name
    · subst hn
      obtain rfl := Option.some.inj (hrow.symm.trans hr)
      rw [← hseq]
      exact hfree n row' hrow'
    · exact hfree n r ((h.others n hn).trans hr)
  · by_cases hn : n = name
    · subst hn
      obtain rfl := Option.some.inj (hrow'.symm.trans hr)
      rw [hseq]
      exact hfree n row hrow
    · exact hfree n r ((h.others n hn).symm.trans hr)

lemma numberFree_of_none (hrow : t.store.rows name = none) :
    NumberFree t name ↔ ∀ n row, t.store.rows n = some row → row.seqId ≠ t.store.nextSeqId := by
  unfold NumberFree
  rw [Table.taken_eq_false_iff]
  constructor
  · intro h n row hr
    refine h hrow n row ?_ hr
    rintro rfl
    rw [hrow] at hr
    exact absurd hr (by simp)
  · intro h _ n row _ hr
    exact h n row hr

/-- A container that had no row takes the first of the free numbers. -/
lemma Noted.numbersFree_of_none (h : Noted t name t') (hrow : t.store.rows name = none) (k : ℕ)
    (hfree : NumberFree t name) : NumbersFree t' k ↔ NumbersFree t (k + 1) := by
  obtain ⟨row', hrow', hseq⟩ := h.row
  rw [hrow, Option.elim_none] at hseq
  have hnext : t'.store.nextSeqId = t.store.nextSeqId + 1 := by
    rw [h.next, if_pos hrow]
  rw [numberFree_of_none hrow] at hfree
  unfold NumbersFree
  rw [hnext]
  constructor
  · intro hall i hi n r hr
    cases i with
    | zero => simpa using hfree n r hr
    | succ i =>
      have hne : n ≠ name := by
        rintro rfl
        rw [hrow] at hr
        exact absurd hr (by simp)
      have hlater := hall i (by omega) n r ((h.others n hne).trans hr)
      push_cast
      omega
  · intro hall i hi n r hr
    by_cases hn : n = name
    · subst hn
      obtain rfl := Option.some.inj (hrow'.symm.trans hr)
      rw [hseq]
      omega
    · have hlater := hall (i + 1) (by omega) n r ((h.others n hn).symm.trans hr)
      push_cast at hlater
      omega

lemma newcomers_cons_of_not_readable (h : (container name).readable = false) :
    newcomers container t (name :: names) = [] := by
  simp [newcomers, h]

lemma newcomers_cons_of_row (h : (container name).readable = true) {row : Row}
    (hrow : t.store.rows name = some row) :
    newcomers container t (name :: names) = newcomers container t names := by
  simp [newcomers, h, hrow]

lemma newcomers_cons_of_none (h : (container name).readable = true)
    (hrow : t.store.rows name = none) :
    newcomers container t (name :: names) = name :: newcomers container t names := by
  simp [newcomers, h, hrow]

/-- Who the newcomers are depends on the containers themselves. -/
lemma newcomers_congr {container' : Text → Container}
    (hcontainer : ∀ n ∈ names, container' n = container n)
    (hrows : ∀ n ∈ names, t'.store.rows n = t.store.rows n) :
    newcomers container' t' names = newcomers container t names := by
  induction names with
  | nil => rfl
  | cons name names ih =>
    have hhead := hcontainer name List.mem_cons_self
    have htail := ih (fun n hn => hcontainer n (List.mem_cons_of_mem _ hn))
      fun n hn => hrows n (List.mem_cons_of_mem _ hn)
    cases hreadable : (container name).readable with
    | false => rw [newcomers_cons_of_not_readable hreadable,
        newcomers_cons_of_not_readable (by rw [hhead, hreadable])]
    | true =>
      have hreadable' : (container' name).readable = true := by rw [hhead, hreadable]
      cases hrow : t.store.rows name with
      | some row =>
        rw [newcomers_cons_of_row hreadable hrow, newcomers_cons_of_row hreadable'
          ((hrows name List.mem_cons_self).trans hrow), htail]
      | none =>
        rw [newcomers_cons_of_none hreadable hrow, newcomers_cons_of_none hreadable'
          ((hrows name List.mem_cons_self).trans hrow), htail]

lemma readAgentMetadata_congr {store store' : Store} (h : store'.rows name = store.rows name) :
    readAgentMetadata store' name = readAgentMetadata store name := by
  simp only [readAgentMetadata, h]

lemma readInfos_congr {container' : Text → Container}
    (hcontainer : ∀ n ∈ names, container' n = container n)
    (hrows : ∀ n ∈ names, t'.store.rows n = t.store.rows n) :
    readInfos lower container' t' names = readInfos lower container t names := by
  induction names with
  | nil => rfl
  | cons name names ih =>
    have htail := ih (fun n hn => hcontainer n (List.mem_cons_of_mem _ hn))
      fun n hn => hrows n (List.mem_cons_of_mem _ hn)
    rw [readInfos_cons, readInfos_cons, htail, hcontainer name List.mem_cons_self,
      readAgentMetadata_congr (hrows name List.mem_cons_self)]

/-- A status file that is no object is an error, whatever the numbers. -/
lemma getAgentInfo_of_not_readable (lower : Text → Text) (name now : Text) (t : Table)
    (h : c.readable = false) :
    ∃ typeName, readInfo lower c name (readAgentMetadata t.store name) =
        .error (hasNoGet typeName) ∧
      getAgentInfo lower c name now t = .error (hasNoGet typeName) := by
  unfold Container.readable at h
  unfold readInfo getAgentInfo Container.readStatus
  cases hrunning : c.running with
  | false => simp [hrunning] at h
  | true =>
    cases hfile : c.statusFile with
    | notObject typeName => exact ⟨typeName, rfl, rfl⟩
    | missing | invalid | payload p => simp [hrunning, hfile] at h

lemma readInfo_of_readable (lower : Text → Text) (name : Text) (metadata : Metadata)
    (h : c.readable = true) : ∃ info, readInfo lower c name metadata = .ok info := by
  unfold Container.readable at h
  unfold readInfo
  cases hrunning : c.running with
  | false => exact ⟨_, rfl⟩
  | true =>
    cases hfile : c.statusFile with
    | notObject typeName => simp [hrunning, hfile] at h
    | missing | invalid | payload p => exact ⟨_, rfl⟩

/-- What is left of the numbers when a container has been read. -/
lemma Noted.numbersFree_newcomers (h : Noted t name t') (hname : name ∉ names)
    (hreadable : (container name).readable = true) (hfree : NumberFree t name) :
    NumbersFree t' (newcomers container t' names).length ↔
      NumbersFree t (newcomers container t (name :: names)).length := by
  have hsame : newcomers container t' names = newcomers container t names :=
    newcomers_congr (fun _ _ => rfl) fun n hn => h.others n fun heq => hname (heq ▸ hn)
  rw [hsame]
  cases hrow : t.store.rows name with
  | some row => rw [newcomers_cons_of_row hreadable hrow, h.numbersFree_of_row hrow]
  | none => rw [newcomers_cons_of_none hreadable hrow, List.length_cons,
      h.numbersFree_of_none hrow _ hfree]

lemma NumbersFree.numberFree (hreadable : (container name).readable = true)
    (h : NumbersFree t (newcomers container t (name :: names)).length) : NumberFree t name := by
  intro hrow
  rw [newcomers_cons_of_none hreadable hrow, List.length_cons] at h
  refine (numberFree_of_none hrow).mpr (fun n row hr => ?_) hrow
  simpa using h 0 (Nat.succ_pos _) n row hr

/-- **A listing whose numbers are free says what is known of each container.** -/
lemma getAgentInfos_of_free (hnodup : names.Nodup)
    (hfree : NumbersFree t (newcomers container t names).length) :
    ∃ t', getAgentInfos lower container now names t
      = (readInfos lower container t names).map (·, t') := by
  induction names generalizing t with
  | nil => exact ⟨t, rfl⟩
  | cons name names ih =>
    obtain ⟨hname, hnodup⟩ := List.nodup_cons.mp hnodup
    rw [getAgentInfos, readInfos_cons]
    cases hreadable : (container name).readable with
    | false =>
      obtain ⟨typeName, hinfo, hhead⟩ :=
        getAgentInfo_of_not_readable lower name now t hreadable
      exact ⟨t, by rw [hhead, hinfo]; rfl⟩
    | true =>
      have hnumber := NumbersFree.numberFree hreadable hfree
      obtain ⟨t', hnoted, hhead⟩ := getAgentInfo_of_free lower (container name) now hnumber
      obtain ⟨t'', htail⟩ := ih hnodup
        (((hnoted hreadable).numbersFree_newcomers hname hreadable hnumber).mpr hfree)
      obtain ⟨info, hinfo⟩ :=
        readInfo_of_readable lower name (readAgentMetadata t.store name) hreadable
      have hsame : readInfos lower container t' names = readInfos lower container t names :=
        readInfos_congr (fun _ _ => rfl) fun n hn =>
          (hnoted hreadable).others n fun heq => hname (heq ▸ hn)
      rw [hhead, hinfo]
      refine ⟨t'', ?_⟩
      change (getAgentInfos lower container now names t' >>= _) = _
      rw [htail, hsame]
      cases readInfos lower container t names <;> rfl

/-- **A listing fails when one of its numbers is taken.** -/
lemma getAgentInfos_of_not_free (hnodup : names.Nodup)
    (hfree : ¬NumbersFree t (newcomers container t names).length) :
    getAgentInfos lower container now names t = .error uniqueFailed := by
  induction names generalizing t with
  | nil => exact absurd numbersFree_zero hfree
  | cons name names ih =>
    obtain ⟨hname, hnodup⟩ := List.nodup_cons.mp hnodup
    rw [getAgentInfos]
    cases hreadable : (container name).readable with
    | false =>
      rw [newcomers_cons_of_not_readable hreadable] at hfree
      exact absurd numbersFree_zero hfree
    | true =>
      by_cases hnumber : NumberFree t name
      · obtain ⟨t', hnoted, hhead⟩ := getAgentInfo_of_free lower (container name) now hnumber
        obtain ⟨info, hinfo⟩ :=
          readInfo_of_readable lower name (readAgentMetadata t.store name) hreadable
        have htail := ih hnodup fun h => hfree
          (((hnoted hreadable).numbersFree_newcomers hname hreadable hnumber).mp h)
        rw [hhead, hinfo]
        change (getAgentInfos lower container now names t' >>= _) = _
        rw [htail]
        rfl
      · rw [getAgentInfo_of_not_free hnumber hreadable]
        rfl

lemma hasNoGet_ne (typeName : Text) : hasNoGet typeName ≠ uniqueFailed := by
  intro h
  have hhead : some '\'' = some 'U' := congrArg List.head? h
  exact absurd hhead (by decide)

lemma readInfo_agentName {metadata : Metadata} {info : AgentInfo}
    (h : readInfo lower c name metadata = .ok info) : info.agentName = name := by
  unfold readInfo at h
  cases hrunning : c.running with
  | false =>
    rw [hrunning] at h
    exact (Except.ok.inj h) ▸ rfl
  | true =>
    rw [hrunning] at h
    cases hfile : c.statusFile with
    | missing | invalid | payload p =>
      rw [hfile] at h
      exact (Except.ok.inj h) ▸ rfl
    | notObject typeName =>
      rw [hfile] at h
      exact absurd h nofun

/-- There is one entry for each container. -/
lemma readInfos_agentName {infos : List AgentInfo}
    (h : readInfos lower container t names = .ok infos) :
    infos.map AgentInfo.agentName = names := by
  induction names generalizing infos with
  | nil => exact (Except.ok.inj h) ▸ rfl
  | cons name names ih =>
    rw [readInfos_cons] at h
    cases hinfo : readInfo lower (container name) name (readAgentMetadata t.store name) with
    | error e =>
      rw [hinfo] at h
      exact absurd h nofun
    | ok info =>
      rw [hinfo] at h
      cases hrest : readInfos lower container t names with
      | error e =>
        rw [hrest] at h
        exact absurd h nofun
      | ok rest =>
        rw [hrest] at h
        obtain rfl := Except.ok.inj h
        rw [List.map_cons, readInfo_agentName hinfo, ih hrest]

/-- What a listing says fails only at a status file. -/
lemma readInfos_ne (lower : Text → Text) (container : Text → Container) (t : Table)
    (names : List Text) : readInfos lower container t names ≠ .error uniqueFailed := by
  induction names with
  | nil => exact nofun
  | cons name names ih =>
    cases hreadable : (container name).readable with
    | false =>
      obtain ⟨typeName, hinfo, -⟩ := getAgentInfo_of_not_readable lower name [] t hreadable
      rw [readInfos_cons, hinfo]
      exact fun h => hasNoGet_ne typeName (Except.error.inj h)
    | true =>
      obtain ⟨info, hinfo⟩ :=
        readInfo_of_readable lower name (readAgentMetadata t.store name) hreadable
      rw [readInfos_cons, hinfo]
      intro h
      cases hrest : readInfos lower container t names with
      | error e =>
        rw [hrest] at h
        exact ih (hrest.trans (congrArg _ (Except.error.inj h)))
      | ok infos =>
        rw [hrest] at h
        exact absurd h nofun

/-- Everything can be read when every status file can. -/
lemma readInfos_isOk (lower : Text → Text) (container : Text → Container) (t : Table)
    (names : List Text) : (readInfos lower container t names).isOk = true ↔
      ∀ n ∈ names, (container n).readable = true := by
  induction names with
  | nil => simp [readInfos, Except.isOk, Except.toBool, pure, Except.pure]
  | cons name names ih =>
    rw [List.forall_mem_cons, ← ih, readInfos_cons]
    cases hreadable : (container name).readable with
    | false =>
      obtain ⟨typeName, hinfo, -⟩ := getAgentInfo_of_not_readable lower name [] t hreadable
      rw [hinfo]
      simp [Except.isOk, Except.toBool, bind, Except.bind]
    | true =>
      obtain ⟨info, hinfo⟩ :=
        readInfo_of_readable lower name (readAgentMetadata t.store name) hreadable
      rw [hinfo]
      cases readInfos lower container t names <;>
        simp [Except.isOk, Except.toBool, bind, Except.bind, Except.map]

end Listing

/-! ## The scan of all containers -/

/-- The containers and the states that the last scan found, and when it was. -/
structure Scan where
  takenAt : ℚ
  names : List Text
  states : Text → Option Text

def containerScanTtl : ℚ := 2

/-- The scan that is used at a time: the last one while it is new, or one of all containers. -/
def containerStateSummary (scan : Option Scan) (containers : List Text)
    (container : Text → Container) (time : ℚ) : Scan :=
  let fresh : Scan :=
    { takenAt := time
      names := containers
      states := fun n => if n ∈ containers then some (container n).state else none }
  match scan with
  | some last => if time - last.takenAt < containerScanTtl then last else fresh
  | none => fresh

/-- The totals of some containers. -/
structure Counts where
  total : ℕ
  running : ℕ
  stopped : ℕ
  bySiemType : Dict Text ℕ

/-- Count the containers of the scan, or only some; for one that the scan does not have LXC is
asked. -/
def containerCounts (store : Store) (scan : Scan) (container : Text → Container)
    (only : Option (List Text)) : Counts :=
  let names := only.getD scan.names
  let running := names.countP fun n =>
    decide ((scan.states n).getD (container n).state ≠ "STOPPED".toList)
  { total := names.length
    running
    stopped := names.length - running
    bySiemType := tally (names.map fun n =>
      textOr ((store.rows n).map (Row.field · .siemType)) "unknown".toList) }

end Habeny.Reports
