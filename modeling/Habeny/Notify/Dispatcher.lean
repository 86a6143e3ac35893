import Habeny.Lib.Transition
import Habeny.Notify.Channels
import Mathlib.Algebra.BigOperators.Group.List.Basic
import Mathlib.Algebra.GroupWithZero.Nat
import Mathlib.Data.List.Perm.Basic

/-!
# Delivering notifications

A notification is put into a queue of bounded length for each channel that wants it.  One thread
takes them out one after another, looks up the channel, and sends; after a failure a timer puts
the notification into the queue again, up to three times, and waits while the queue is full.
Meanwhile the channels change.

An observer gives every notification that the queue accepts a number (its *ticket*), and writes
down the attempts to send it and how it was settled.  Each ticket is in one place at a time
(`Sound.places`), the attempts that are counted in a notification are those that were made
(`Trying`), and every step of the dispatcher leaves less to do (`potential`).
-/

namespace Habeny.Notify

open Habeny.Lib

/-! ## The channels -/

/-- The table of the channels; a number is never given again (`AUTOINCREMENT`). -/
structure ChannelTable where
  rows : Dict ℕ ChannelRow
  nextId : ℕ
  lt_nextId : ∀ id row, rows.get id = some row → id < nextId

namespace ChannelTable

variable (t : ChannelTable)

def empty : ChannelTable where
  rows := .empty
  nextId := 1
  lt_nextId := fun _ _ h => by cases h

lemma insert_lt (row : ChannelRow) (id : ℕ) (row' : ChannelRow)
    (h : (t.rows.set t.nextId row).get id = some row') : id < t.nextId + 1 := by
  by_cases hid : id = t.nextId
  · omega
  · rw [Dict.get_set_of_ne hid] at h
    exact Nat.lt_succ_of_lt (t.lt_nextId id row' h)

def insert (row : ChannelRow) : ChannelTable where
  rows := t.rows.set t.nextId row
  nextId := t.nextId + 1
  lt_nextId := t.insert_lt row

lemma change_lt (id : ℕ) (f : ChannelRow → ChannelRow) (id' : ℕ) (row' : ChannelRow)
    (h : (match t.rows.get id with
      | some row => t.rows.set id (f row)
      | none => t.rows).get id' = some row') : id' < t.nextId := by
  split at h
  · next row hrow =>
    by_cases hid : id' = id
    · exact hid ▸ t.lt_nextId id row hrow
    · rw [Dict.get_set_of_ne hid] at h
      exact t.lt_nextId id' row' h
  · exact t.lt_nextId id' row' h

/-- `UPDATE notification_channels … WHERE id = ?` -/
def change (id : ℕ) (f : ChannelRow → ChannelRow) : ChannelTable where
  rows := match t.rows.get id with
    | some row => t.rows.set id (f row)
    | none => t.rows
  nextId := t.nextId
  lt_nextId := t.change_lt id f

lemma delete_lt (id : ℕ) (id' : ℕ) (row' : ChannelRow)
    (h : (t.rows.erase id).get id' = some row') : id' < t.nextId := by
  by_cases hid : id' = id
  · rw [hid, Dict.get_erase_self] at h
    cases h
  · rw [Dict.get_erase_of_ne hid] at h
    exact t.lt_nextId id' row' h

def delete (id : ℕ) : ChannelTable where
  rows := t.rows.erase id
  nextId := t.nextId
  lt_nextId := t.delete_lt id

/-- The channel exists and is enabled. -/
def isOn (id : ℕ) : Bool := (t.rows.get id).any fun row => row.enabled

end ChannelTable

/-- `PROBLEM_LEVELS` -/
def problemLevels : List Text := ["warning".toList, "error".toList]

/-- Whether a channel wants an event. -/
def ChannelRow.wants (row : ChannelRow) (event level : Text) : Bool :=
  row.enabled && (decide (row.events = []) || decide (event ∈ row.events)) &&
    (!row.onlyProblems || decide (level ∈ problemLevels))

/-- The channels that want an event, by their names (`ORDER BY name COLLATE NOCASE`). -/
def ChannelTable.wanting (t : ChannelTable) (event level : Text) : List ℕ :=
  ((t.rows.items.filter fun c => c.2.wants event level).insertionSort
    fun c c' => c.2.name.map Char.toLower ≤ c'.2.name.map Char.toLower).map Prod.fst

/-- The row with the result of a delivery (`_record_result`). -/
def ChannelRow.recorded (row : ChannelRow) (now : Text) (error : Option Text) : ChannelRow :=
  { row with
    lastSentAt := some now
    lastStatus := some
      (if error.any fun e => decide (e ≠ []) then "error".toList else "ok".toList)
    lastError := error }

/-! ## The dispatcher -/

variable {M : Type}

/-- An item of the queue. -/
structure Notification (M : Type) where
  channelId : ℕ
  msg : M
  attempt : ℕ
  ticket : ℕ

/-- What the thread does. -/
inductive Worker (M : Type) where
  | idle
  | took (x : Notification M)
  | delivering (x : Notification M) (channel : ChannelRow)
  /-- The last attempt was made, and its result is to be recorded. -/
  | recording (x : Notification M) (channel : ChannelRow) (error : Option Text)

/-- An attempt to send a notification; no error when it was sent. -/
structure Attempt where
  ticket : ℕ
  error : Option Text

/-- `NOTIFICATIONS.inc(type=…, result=…)` -/
structure Result where
  ticket : ℕ
  type : ChannelType
  sent : Bool

/-- The channels, what the callers of `emit` have still to submit, the queue, the notifications
that timers hold, and the thread; and what the observer keeps, the newest first: how many
notifications were accepted, the attempts, the results, the notifications whose channel was not
there or not enabled when they were looked at, and the channels that were removed or disabled. -/
structure Dispatcher (M : Type) where
  table : ChannelTable
  submitting : List (List ℕ × M)
  queue : List (Notification M)
  timers : List (Notification M)
  worker : Worker M
  accepted : ℕ
  attempts : List Attempt
  results : List Result
  abandoned : List (Notification M)
  turnedOff : List ℕ

inductive DispatcherAction (M : Type) where
  | createChannel (row : ChannelRow)
  /-- An update that is not refused, with what it writes. -/
  | updateChannel (id : ℕ) (req : ChannelUpdate) (now : Text) (config : Dict CodeText JsonValue)
      (checked : List Text)
  | deleteChannel (id : ℕ)
  | emit (event level : Text) (msg : M)
  /-- A caller of `emit` submits its message to its next channel. -/
  | submit (caller : ℕ)
  | take
  | look
  | deliver (error : Option Text)
  /-- `written` when the row could be written. -/
  | record (now : Text) (written : Bool)
  /-- A timer is over, and there is room in the queue. -/
  | fire (timer : ℕ)

/-- A step of the thread or of a timer. -/
def DispatcherAction.dispatches : DispatcherAction M → Bool
  | .take | .look | .deliver _ | .record _ _ | .fire _ => true
  | .createChannel _ | .updateChannel _ _ _ _ _ | .deleteChannel _ | .emit _ _ _
  | .submit _ => false

/-- `queue.Queue(maxsize=1000)` -/
def maxsize : ℕ := 1000

/-- `len(RETRY_DELAYS)` -/
def retries : ℕ := 3

namespace Dispatcher

def start (table : ChannelTable) : Dispatcher M where
  table
  submitting := []
  queue := []
  timers := []
  worker := .idle
  accepted := 0
  attempts := []
  results := []
  abandoned := []
  turnedOff := []

variable (s : Dispatcher M)

def updateChannel (id : ℕ) (req : ChannelUpdate) (now : Text) (config : Dict CodeText JsonValue)
    (checked : List Text) : Dispatcher M :=
  { s with
    table := s.table.change id fun row => row.updated req now config checked
    turnedOff := if req.enabled then s.turnedOff else id :: s.turnedOff }

def emit (event level : Text) (msg : M) : Dispatcher M :=
  -- an unknown event is a `ValueError`
  if event ∈ events then
    { s with submitting := s.submitting ++ [(s.table.wanting event level, msg)] }
  else s

/-- Submit to a channel, the others being left to do; a full queue drops the notification. -/
def submit (caller : ℕ) (id : ℕ) (rest : List ℕ) (msg : M) : Dispatcher M :=
  let s := { s with submitting := s.submitting.set caller (rest, msg) }
  if s.queue.length < maxsize then
    { s with
      queue := s.queue ++ [⟨id, msg, 0, s.accepted⟩]
      accepted := s.accepted + 1 }
  else s

def look (x : Notification M) : Dispatcher M :=
  match s.table.rows.get x.channelId with
  | some channel =>
    if channel.enabled then { s with worker := .delivering x channel }
    else { s with worker := .idle, abandoned := x :: s.abandoned }
  | none => { s with worker := .idle, abandoned := x :: s.abandoned }

def deliver (x : Notification M) (channel : ChannelRow) (error : Option Text) : Dispatcher M :=
  let s := { s with attempts := ⟨x.ticket, error⟩ :: s.attempts }
  if error.isSome && decide (x.attempt < retries) then
    { s with worker := .idle, timers := { x with attempt := x.attempt + 1 } :: s.timers }
  else { s with worker := .recording x channel error }

def record (x : Notification M) (channel : ChannelRow) (error : Option Text) (now : Text)
    (written : Bool) : Dispatcher M :=
  { s with
    table :=
      if written then
        s.table.change x.channelId fun row => row.recorded now (error.map fun e => e.take 500)
      else s.table
    worker := .idle
    results := ⟨x.ticket, channel.type, error.isNone⟩ :: s.results }

def step (s : Dispatcher M) : DispatcherAction M → Option (Dispatcher M)
  | .createChannel row =>
    if nameTaken s.table.rows s.table.nextId row.name then none
    else some { s with table := s.table.insert row }
  | .updateChannel id req now config checked =>
    some (s.updateChannel id req now config checked)
  | .deleteChannel id =>
    some { s with table := s.table.delete id, turnedOff := id :: s.turnedOff }
  | .emit event level msg => some (s.emit event level msg)
  | .submit caller =>
    match s.submitting[caller]? with
    | some (id :: rest, msg) => some (s.submit caller id rest msg)
    | _ => none
  | .take =>
    match s.worker, s.queue with
    | .idle, x :: rest => some { s with worker := .took x, queue := rest }
    | _, _ => none
  | .look =>
    match s.worker with
    | .took x => some (s.look x)
    | _ => none
  | .deliver error =>
    match s.worker with
    | .delivering x channel => some (s.deliver x channel error)
    | _ => none
  | .record now written =>
    match s.worker with
    | .recording x channel error => some (s.record x channel error now written)
    | _ => none
  | .fire timer =>
    match s.timers[timer]? with
    | some x =>
      if s.queue.length < maxsize then
        some { s with queue := s.queue ++ [x], timers := s.timers.eraseIdx timer }
      else none
    | none => none

end Dispatcher

/-! ## Attempts -/

/-- How often a notification was attempted. -/
def tries (log : List Attempt) (ticket : ℕ) : ℕ := log.countP fun a => decide (a.ticket = ticket)

/-- A notification was sent. -/
def Succeeded (log : List Attempt) (ticket : ℕ) : Prop :=
  ∃ a ∈ log, a.ticket = ticket ∧ a.error = none

/-- A notification that is still to be sent: its attempts are counted, and they failed. -/
structure Trying (log : List Attempt) (x : Notification M) : Prop where
  attempt_le : x.attempt ≤ retries
  tries_eq : tries log x.ticket = x.attempt
  failed : ¬Succeeded log x.ticket

/-- A notification that is not sent any more. -/
structure Tried (log : List Attempt) (ticket : ℕ) (sent : Bool) : Prop where
  tries_le : tries log ticket ≤ retries + 1
  sent_iff : sent = true ↔ Succeeded log ticket

section Attempts

variable {log : List Attempt} {a : Attempt} {x : Notification M} {n : ℕ} {sent : Bool}

lemma tries_cons_of_ne (h : n ≠ a.ticket) : tries (a :: log) n = tries log n :=
  List.countP_cons_of_neg (by simpa using h.symm)

lemma tries_cons_self : tries (a :: log) a.ticket = tries log a.ticket + 1 :=
  List.countP_cons_of_pos (by simp)

lemma succeeded_cons :
    Succeeded (a :: log) n ↔ a.ticket = n ∧ a.error = none ∨ Succeeded log n := by
  simp [Succeeded]

lemma succeeded_cons_of_ne (h : n ≠ a.ticket) : Succeeded (a :: log) n ↔ Succeeded log n := by
  rw [succeeded_cons]
  constructor
  · rintro (⟨rfl, -⟩ | hlog)
    · exact absurd rfl h
    · exact hlog
  · exact Or.inr

lemma Trying.other (h : Trying log x) (hne : x.ticket ≠ a.ticket) : Trying (a :: log) x :=
  ⟨h.attempt_le, (tries_cons_of_ne hne).trans h.tries_eq,
    fun hsent => h.failed ((succeeded_cons_of_ne hne).mp hsent)⟩

lemma Tried.other (h : Tried log n sent) (hne : n ≠ a.ticket) : Tried (a :: log) n sent :=
  ⟨(tries_cons_of_ne hne).trans_le h.tries_le,
    h.sent_iff.trans (succeeded_cons_of_ne hne).symm⟩

/-- After a failed attempt that is not the last, the notification is tried again. -/
lemma Trying.again (h : Trying log x) {e : Text} (hmore : x.attempt < retries) :
    Trying (⟨x.ticket, some e⟩ :: log) { x with attempt := x.attempt + 1 } := by
  refine ⟨hmore, ?_, fun hsent => ?_⟩
  · show tries (⟨x.ticket, some e⟩ :: log) x.ticket = x.attempt + 1
    rw [← h.tries_eq]
    exact tries_cons_self (a := ⟨x.ticket, some e⟩)
  · rcases succeeded_cons.mp hsent with ⟨-, herror⟩ | hsent
    · cases herror
    · exact h.failed hsent

/-- After its last attempt, it is sent or not. -/
lemma Trying.tried (h : Trying log x) (error : Option Text) :
    Tried (⟨x.ticket, error⟩ :: log) x.ticket error.isNone := by
  constructor
  · have htries : tries (⟨x.ticket, error⟩ :: log) x.ticket = tries log x.ticket + 1 :=
      tries_cons_self (a := ⟨x.ticket, error⟩)
    have hattempt := h.attempt_le
    rw [htries, h.tries_eq]
    omega
  · rw [Option.isNone_iff_eq_none, succeeded_cons]
    constructor
    · intro herror
      exact Or.inl ⟨rfl, herror⟩
    · rintro (⟨-, herror⟩ | hsent)
      · exact herror
      · exact absurd hsent h.failed

end Attempts

/-! ## The invariant -/

/-- The notification that the thread has still to send. -/
def Worker.toSend : Worker M → List (Notification M)
  | .took x | .delivering x _ => [x]
  | .idle | .recording _ _ _ => []

/-- The notification whose result the thread has to record. -/
def Worker.toRecord : Worker M → List (Notification M × Option Text)
  | .recording x _ error => [(x, error)]
  | .idle | .took _ | .delivering _ _ => []

namespace Dispatcher

variable (s : Dispatcher M)

/-- What is still to be sent. -/
def toSend : List (Notification M) := s.queue ++ s.timers ++ s.worker.toSend

/-- The tickets that are not settled. -/
def pending : List ℕ :=
  s.toSend.map Notification.ticket ++ s.worker.toRecord.map fun x => x.1.ticket

/-- The tickets that are settled. -/
def settled : List ℕ :=
  s.results.map Result.ticket ++ s.abandoned.map Notification.ticket

/-- The channels that something is, or will be, sent to. -/
def channelIds : List ℕ :=
  s.toSend.map Notification.channelId ++ s.submitting.flatMap Prod.fst

/-- What holds of a dispatcher in every run. -/
structure Sound : Prop where
  places : ∀ n, (s.pending ++ s.settled).count n = if n < s.accepted then 1 else 0
  trying : ∀ x ∈ s.toSend, Trying s.attempts x
  recording : ∀ x ∈ s.worker.toRecord, Tried s.attempts x.1.ticket x.2.isNone
  results : ∀ r ∈ s.results, Tried s.attempts r.ticket r.sent
  abandoned : ∀ x ∈ s.abandoned, Trying s.attempts x ∧ x.channelId ∈ s.turnedOff
  unaccepted : ∀ a ∈ s.attempts, a.ticket < s.accepted
  last : s.attempts.Pairwise fun later earlier =>
    earlier.error = none → later.ticket ≠ earlier.ticket
  channels : ∀ id ∈ s.channelIds, s.table.isOn id = true ∨ id ∈ s.turnedOff

end Dispatcher

namespace ChannelTable

variable {t : ChannelTable} {id id' : ℕ}

lemma isOn_iff : t.isOn id = true ↔ ∃ row, t.rows.get id = some row ∧ row.enabled = true := by
  rw [isOn, Option.any_eq_true]

lemma isOn_insert (row : ChannelRow) (h : t.isOn id = true) : (t.insert row).isOn id = true := by
  obtain ⟨row', hget, hon⟩ := isOn_iff.mp h
  have hlt := t.lt_nextId id row' hget
  refine isOn_iff.mpr ⟨row', ?_, hon⟩
  show (t.rows.set t.nextId row).get id = some row'
  rw [Dict.get_set_of_ne (by omega), hget]

lemma get_change_of_ne {f : ChannelRow → ChannelRow} (h : id ≠ id') :
    (t.change id' f).rows.get id = t.rows.get id := by
  show (match t.rows.get id' with
    | some row => t.rows.set id' (f row)
    | none => t.rows).get id = t.rows.get id
  split
  · rw [Dict.get_set_of_ne h]
  · rfl

lemma get_change_self {f : ChannelRow → ChannelRow} {row : ChannelRow}
    (h : t.rows.get id = some row) : (t.change id f).rows.get id = some (f row) := by
  show (match t.rows.get id with
    | some row => t.rows.set id (f row)
    | none => t.rows).get id = some (f row)
  rw [h]
  exact Dict.get_set_self

lemma isOn_change_of_ne {f : ChannelRow → ChannelRow} (hne : id ≠ id') (h : t.isOn id = true) :
    (t.change id' f).isOn id = true := by
  rw [isOn, get_change_of_ne hne]
  exact h

/-- A change that leaves the channel enabled. -/
lemma isOn_change {f : ChannelRow → ChannelRow}
    (hf : ∀ row, row.enabled = true → (f row).enabled = true) (h : t.isOn id = true) :
    (t.change id' f).isOn id = true := by
  by_cases hne : id = id'
  · subst hne
    obtain ⟨row, hget, hon⟩ := isOn_iff.mp h
    exact isOn_iff.mpr ⟨f row, get_change_self hget, hf row hon⟩
  · exact isOn_change_of_ne hne h

lemma isOn_delete_of_ne (hne : id ≠ id') (h : t.isOn id = true) :
    (t.delete id').isOn id = true := by
  show ((t.rows.erase id').get id).any _ = true
  rw [Dict.get_erase_of_ne hne]
  exact h

/-- Only channels that are enabled want something. -/
lemma isOn_of_mem_wanting {event level : Text} (h : id ∈ t.wanting event level) :
    t.isOn id = true := by
  obtain ⟨⟨id, row⟩, hmem, rfl⟩ := List.mem_map.mp h
  rw [List.mem_insertionSort, List.mem_filter] at hmem
  have hwants : row.wants event level = true := hmem.2
  rw [ChannelRow.wants, Bool.and_eq_true, Bool.and_eq_true] at hwants
  exact isOn_iff.mpr ⟨row, Dict.mem_items.mp hmem.1, hwants.1.1⟩

end ChannelTable

namespace Dispatcher.Sound

variable {s s' : Dispatcher M} {x : Notification M} {channel : ChannelRow}

lemma start (table : ChannelTable) : (Dispatcher.start table : Dispatcher M).Sound where
  places := fun n => by simp [Dispatcher.start, pending, toSend, settled, Worker.toSend,
    Worker.toRecord]
  trying := fun _ h => by cases h
  recording := fun _ h => by cases h
  results := fun _ h => by cases h
  abandoned := fun _ h => by cases h
  unaccepted := fun _ h => by cases h
  last := List.Pairwise.nil
  channels := fun _ h => by cases h

/-- A notification moves between the queue, the timers and the thread. -/
lemma move {queue timers : List (Notification M)} {worker : Worker M} (h : s.Sound)
    (hperm : (queue ++ timers ++ worker.toSend).Perm s.toSend)
    (hrecord : worker.toRecord = s.worker.toRecord) :
    Dispatcher.Sound { s with queue, timers, worker } where
  places := fun n => by
    rw [← h.places n]
    refine List.Perm.count_eq (List.Perm.append_right _ ?_) n
    simp only [pending, toSend, hrecord]
    exact (hperm.map Notification.ticket).append_right _
  trying := fun y hy => h.trying y (hperm.mem_iff.mp hy)
  recording := fun y hy => h.recording y (hrecord ▸ hy)
  results := h.results
  abandoned := h.abandoned
  unaccepted := h.unaccepted
  last := h.last
  channels := fun id hid => by
    refine h.channels id ?_
    rw [channelIds, List.mem_append] at hid ⊢
    exact hid.imp_left (hperm.map Notification.channelId).mem_iff.mp

/-- What the thread has to send is nowhere else. -/
lemma ne_of_elsewhere (h : s.Sound) (hx : x ∈ s.worker.toSend) :
    (∀ y ∈ s.queue ++ s.timers, y.ticket ≠ x.ticket) ∧
      (∀ r ∈ s.results, r.ticket ≠ x.ticket) ∧ (∀ y ∈ s.abandoned, y.ticket ≠ x.ticket) := by
  have hplaces := h.places x.ticket
  have hone : 0 < (s.worker.toSend.map Notification.ticket).count x.ticket :=
    List.count_pos_iff.mpr (List.mem_map_of_mem hx)
  have hle : (if x.ticket < s.accepted then 1 else 0) ≤ 1 := by split <;> omega
  simp only [pending, toSend, settled, List.map_append, List.count_append] at hplaces
  have hqueue : (s.queue.map Notification.ticket).count x.ticket = 0 := by omega
  have htimers : (s.timers.map Notification.ticket).count x.ticket = 0 := by omega
  have hresults : (s.results.map Result.ticket).count x.ticket = 0 := by omega
  have habandoned : (s.abandoned.map Notification.ticket).count x.ticket = 0 := by omega
  rw [List.count_eq_zero] at hqueue htimers hresults habandoned
  refine ⟨fun y hy heq => ?_, fun r hr heq => ?_, fun y hy heq => ?_⟩
  · rcases List.mem_append.mp hy with hy | hy
    · exact hqueue (heq ▸ List.mem_map_of_mem hy)
    · exact htimers (heq ▸ List.mem_map_of_mem hy)
  · exact hresults (heq ▸ List.mem_map_of_mem hr)
  · exact habandoned (heq ▸ List.mem_map_of_mem hy)

/-- Every ticket is one of the accepted. -/
lemma lt_accepted (h : s.Sound) {n : ℕ} (hn : n ∈ s.pending ++ s.settled) : n < s.accepted := by
  by_contra hge
  have hplaces := h.places n
  rw [if_neg hge, List.count_eq_zero] at hplaces
  exact hplaces hn

/-! ### Steps -/

lemma createChannel (h : s.Sound) (row : ChannelRow) :
    Dispatcher.Sound { s with table := s.table.insert row } :=
  { h with
    channels := fun id hid => (h.channels id hid).imp_left (ChannelTable.isOn_insert row) }

lemma updateChannel (h : s.Sound) (id : ℕ) (req : ChannelUpdate) (now : Text)
    (config : Dict CodeText JsonValue) (checked : List Text) :
    (s.updateChannel id req now config checked).Sound := by
  cases hon : req.enabled with
  | true =>
    have hoff : (s.updateChannel id req now config checked).turnedOff = s.turnedOff := by
      simp [Dispatcher.updateChannel, hon]
    refine { h with abandoned := hoff ▸ h.abandoned, channels := fun id' hid' => ?_ }
    rw [hoff]
    exact (h.channels id' hid').imp_left (ChannelTable.isOn_change fun _ _ => hon)
  | false =>
    have hoff : (s.updateChannel id req now config checked).turnedOff = id :: s.turnedOff := by
      simp [Dispatcher.updateChannel, hon]
    refine { h with abandoned := fun x hx => ?_, channels := fun id' hid' => ?_ } <;> rw [hoff]
    · exact (h.abandoned x hx).imp_right (List.mem_cons_of_mem id)
    · by_cases hne : id' = id
      · exact Or.inr (hne ▸ List.mem_cons_self)
      · exact (h.channels id' hid').imp (ChannelTable.isOn_change_of_ne hne)
          (List.mem_cons_of_mem id)

lemma deleteChannel (h : s.Sound) (id : ℕ) :
    Dispatcher.Sound { s with table := s.table.delete id, turnedOff := id :: s.turnedOff } := by
  refine { h with abandoned := fun x hx => ?_, channels := fun id' hid' => ?_ }
  · exact (h.abandoned x hx).imp_right (List.mem_cons_of_mem id)
  · by_cases hne : id' = id
    · exact Or.inr (hne ▸ List.mem_cons_self)
    · exact (h.channels id' hid').imp (ChannelTable.isOn_delete_of_ne hne)
        (List.mem_cons_of_mem id)

lemma emit (h : s.Sound) (event level : Text) (msg : M) : (s.emit event level msg).Sound := by
  unfold Dispatcher.emit
  split
  · refine { h with channels := fun id hid => ?_ }
    rw [channelIds, List.flatMap_append, ← List.append_assoc, List.mem_append] at hid
    obtain hid | hid := hid
    · exact h.channels id hid
    · rw [List.flatMap_singleton] at hid
      exact Or.inl (ChannelTable.isOn_of_mem_wanting hid)
  · exact h

lemma submit (h : s.Sound) {caller id : ℕ} {rest : List ℕ} {msg : M}
    (hcaller : s.submitting[caller]? = some (id :: rest, msg)) :
    (s.submit caller id rest msg).Sound := by
  have hmem : (id :: rest, msg) ∈ s.submitting := List.mem_of_getElem? hcaller
  have hcalled : ∀ id' ∈ id :: rest, s.table.isOn id' = true ∨ id' ∈ s.turnedOff := by
    intro id' hid'
    exact h.channels id' (List.mem_append_right _ (List.mem_flatMap.mpr ⟨_, hmem, hid'⟩))
  have hleft : ∀ id' ∈ (s.submitting.set caller (rest, msg)).flatMap Prod.fst,
      s.table.isOn id' = true ∨ id' ∈ s.turnedOff := by
    intro id' hid'
    obtain ⟨c, hc, hid'⟩ := List.mem_flatMap.mp hid'
    obtain hc | rfl := List.mem_or_eq_of_mem_set hc
    · exact h.channels id' (List.mem_append_right _ (List.mem_flatMap.mpr ⟨c, hc, hid'⟩))
    · exact hcalled id' (List.mem_cons_of_mem id hid')
  unfold Dispatcher.submit
  simp only
  split
  · -- the queue accepts the notification, which has a new ticket
    have hnew : Trying s.attempts (⟨id, msg, 0, s.accepted⟩ : Notification M) := by
      have hno : ∀ a ∈ s.attempts, a.ticket ≠ s.accepted := by
        intro a ha
        have := h.unaccepted a ha
        omega
      refine ⟨Nat.zero_le _, ?_, ?_⟩
      · exact List.countP_eq_zero.mpr fun a ha => by simpa using hno a ha
      · rintro ⟨a, ha, hticket, -⟩
        exact hno a ha hticket
    refine { h with
      places := fun n => ?_, trying := fun y hy => ?_, unaccepted := fun a ha => ?_,
      channels := fun id' hid' => ?_ }
    · have hplaces := h.places n
      simp only [pending, toSend, settled, List.map_append, List.count_append, List.map_cons,
        List.map_nil, List.count_singleton] at hplaces ⊢
      have hsplit : (if n < s.accepted + 1 then 1 else 0) =
          (if n < s.accepted then 1 else 0) + if s.accepted == n then 1 else 0 := by
        simp only [beq_iff_eq]
        split_ifs <;> omega
      omega
    · simp only [toSend, List.mem_append, List.mem_singleton] at hy
      obtain ((hy | rfl) | hy) | hy := hy
      · exact h.trying y (by simp [toSend, hy])
      · exact hnew
      · exact h.trying y (by simp [toSend, hy])
      · exact h.trying y (by simp [toSend, hy])
    · exact Nat.lt_succ_of_lt (h.unaccepted a ha)
    · simp only [channelIds, toSend, List.map_append, List.mem_append, List.map_cons,
        List.map_nil, List.mem_singleton] at hid'
      obtain (((hid' | rfl) | hid') | hid') | hid' := hid'
      · exact h.channels id' (by simp only [channelIds, toSend, List.map_append,
          List.mem_append, hid', true_or])
      · exact hcalled _ List.mem_cons_self
      · exact h.channels id' (by simp only [channelIds, toSend, List.map_append,
          List.mem_append, hid', true_or, or_true])
      · exact h.channels id' (by simp only [channelIds, toSend, List.map_append,
          List.mem_append, hid', true_or, or_true])
      · exact hleft id' hid'
  · refine { h with channels := fun id' hid' => ?_ }
    obtain hid' | hid' := List.mem_append.mp hid'
    · exact h.channels id' (List.mem_append_left _ hid')
    · exact hleft id' hid'

lemma take {rest : List (Notification M)} (h : s.Sound) (hw : s.worker = .idle)
    (hq : s.queue = x :: rest) :
    Dispatcher.Sound { s with worker := .took x, queue := rest } := by
  refine h.move ?_ (by rw [hw]; rfl)
  rw [toSend, hq, hw]
  simp only [Worker.toSend, List.append_nil]
  exact List.perm_append_singleton x (rest ++ s.timers)

lemma look (h : s.Sound) (hw : s.worker = .took x) : (s.look x).Sound := by
  have hx : x ∈ s.toSend := List.mem_append_right _ (by rw [hw]; exact List.mem_singleton_self x)
  -- what is not there, or not enabled, was turned off
  have hgone : s.table.isOn x.channelId ≠ true →
      Dispatcher.Sound { s with worker := .idle, abandoned := x :: s.abandoned } := by
    intro hoff
    have hknown := h.channels x.channelId
      (List.mem_append_left _ (List.mem_map_of_mem hx))
    refine { h with
      places := fun n => ?_, trying := fun y hy => ?_, recording := fun _ hy => ?_,
      abandoned := fun y hy => ?_, channels := fun id hid => ?_ }
    · have hplaces := h.places n
      simp only [pending, toSend, settled, hw, Worker.toSend, Worker.toRecord, List.map_append,
        List.count_append, List.map_cons, List.map_nil, List.count_cons, List.count_nil]
        at hplaces ⊢
      omega
    · refine h.trying y (List.mem_append_left _ ?_)
      simpa [toSend, Worker.toSend] using hy
    · cases hy
    · obtain rfl | hy := List.mem_cons.mp hy
      · exact ⟨h.trying y hx, hknown.resolve_left hoff⟩
      · exact h.abandoned y hy
    · refine h.channels id ?_
      simp only [channelIds, toSend, Worker.toSend, List.append_nil, List.map_append,
        List.mem_append] at hid ⊢
      exact hid.imp_left Or.inl
  unfold Dispatcher.look
  split
  · next channel hget =>
    split
    · refine h.move (List.Perm.of_eq ?_) (by rw [hw]; rfl)
      rw [toSend, hw]
      rfl
    · next hoff =>
      exact hgone (by simpa [ChannelTable.isOn, hget] using hoff)
  · next hget => exact hgone (by simp [ChannelTable.isOn, hget])

lemma deliver (h : s.Sound) (hw : s.worker = .delivering x channel) (error : Option Text) :
    (s.deliver x channel error).Sound := by
  have hsends : x ∈ s.worker.toSend := by
    rw [hw]
    exact List.mem_singleton_self x
  have hx : x ∈ s.toSend := List.mem_append_right _ hsends
  have htrying := h.trying x hx
  obtain ⟨hwaits, hresults, habandoned⟩ := h.ne_of_elsewhere hsends
  have haccepted : x.ticket < s.accepted :=
    h.lt_accepted (List.mem_append_left _ (List.mem_append_left _ (List.mem_map_of_mem hx)))
  -- the attempt is the first that succeeds, or none did
  have hlast : (⟨x.ticket, error⟩ :: s.attempts : List Attempt).Pairwise fun later earlier =>
      earlier.error = none → later.ticket ≠ earlier.ticket := by
    refine List.Pairwise.cons (fun a ha hsent hticket => ?_) h.last
    exact htrying.failed ⟨a, ha, hticket.symm, hsent⟩
  have hunaccepted : ∀ a ∈ (⟨x.ticket, error⟩ :: s.attempts : List Attempt),
      a.ticket < s.accepted := by
    intro a ha
    obtain rfl | ha := List.mem_cons.mp ha
    · exact haccepted
    · exact h.unaccepted a ha
  unfold Dispatcher.deliver
  simp only
  split
  · next hagain =>
    rw [Bool.and_eq_true, Option.isSome_iff_exists, decide_eq_true_eq] at hagain
    obtain ⟨⟨e, rfl⟩, hmore⟩ := hagain
    refine { h with
      places := fun n => ?_, trying := fun y hy => ?_, recording := fun _ hy => ?_,
      results := fun r hr => (h.results r hr).other (hresults r hr),
      abandoned := fun y hy => ?_, unaccepted := hunaccepted, last := hlast,
      channels := fun id hid => ?_ }
    · have hplaces := h.places n
      simp only [pending, toSend, settled, hw, Worker.toSend, Worker.toRecord, List.map_append,
        List.count_append, List.map_cons, List.map_nil, List.count_cons, List.count_nil]
        at hplaces ⊢
      omega
    · simp only [toSend, Worker.toSend, List.append_nil, List.mem_append, List.mem_cons] at hy
      obtain hy | rfl | hy := hy
      · exact (h.trying y (by simp [toSend, hy])).other (hwaits y (List.mem_append_left _ hy))
      · exact htrying.again hmore
      · exact (h.trying y (by simp [toSend, hy])).other (hwaits y (List.mem_append_right _ hy))
    · cases hy
    · exact (h.abandoned y hy).imp_left fun ht => ht.other (habandoned y hy)
    · refine h.channels id ?_
      simp only [channelIds, toSend, hw, Worker.toSend, List.append_nil, List.map_append,
        List.map_cons, List.map_nil, List.mem_append, List.mem_cons, List.not_mem_nil, or_false]
        at hid ⊢
      obtain (hid | hid | hid) | hid := hid
      · exact Or.inl (Or.inl (Or.inl hid))
      · exact Or.inl (Or.inr hid)
      · exact Or.inl (Or.inl (Or.inr hid))
      · exact Or.inr hid
  · refine { h with
      places := fun n => ?_, trying := fun y hy => ?_, recording := fun y hy => ?_,
      results := fun r hr => (h.results r hr).other (hresults r hr),
      abandoned := fun y hy => ?_, unaccepted := hunaccepted, last := hlast,
      channels := fun id hid => ?_ }
    · have hplaces := h.places n
      simp only [pending, toSend, settled, hw, Worker.toSend, Worker.toRecord, List.map_append,
        List.count_append, List.map_cons, List.map_nil, List.count_cons, List.count_nil]
        at hplaces ⊢
      omega
    · have hy : y ∈ s.queue ++ s.timers := by simpa [toSend, Worker.toSend] using hy
      exact (h.trying y (List.mem_append_left _ hy)).other (hwaits y hy)
    · rw [Worker.toRecord, List.mem_singleton] at hy
      subst hy
      exact htrying.tried error
    · exact (h.abandoned y hy).imp_left fun ht => ht.other (habandoned y hy)
    · refine h.channels id ?_
      simp only [channelIds, toSend, Worker.toSend, List.append_nil, List.map_append,
        List.mem_append] at hid ⊢
      exact hid.imp_left Or.inl

lemma record {error : Option Text} (h : s.Sound) (hw : s.worker = .recording x channel error)
    (now : Text) (written : Bool) : (s.record x channel error now written).Sound := by
  have hon : ∀ id, s.table.isOn id = true →
      (s.record x channel error now written).table.isOn id = true := by
    intro id hid
    cases written with
    | false => exact hid
    | true => exact ChannelTable.isOn_change (fun _ hrow => hrow) hid
  refine { h with
    places := fun n => ?_, trying := fun y hy => ?_, recording := fun _ hy => ?_,
    results := fun r hr => ?_, channels := fun id hid => ?_ }
  · have hplaces := h.places n
    show _ = if n < s.accepted then 1 else 0
    simp only [Dispatcher.record, pending, toSend, settled, hw, Worker.toSend, Worker.toRecord,
      List.map_append, List.count_append, List.map_cons, List.map_nil, List.count_cons,
      List.count_nil] at hplaces ⊢
    omega
  · refine h.trying y (List.mem_append_left _ ?_)
    simpa [Dispatcher.record, toSend, Worker.toSend] using hy
  · cases hy
  · obtain rfl | hr := List.mem_cons.mp hr
    · exact h.recording (x, error) (by rw [hw]; exact List.mem_singleton_self _)
    · exact h.results r hr
  · refine (h.channels id ?_).imp_left (hon id)
    simpa only [Dispatcher.record, channelIds, toSend, hw, Worker.toSend] using hid

lemma fire {timer : ℕ} (h : s.Sound) (htimer : s.timers[timer]? = some x) :
    Dispatcher.Sound { s with queue := s.queue ++ [x], timers := s.timers.eraseIdx timer } := by
  refine h.move (List.Perm.append_right _ ?_) rfl
  obtain ⟨hlt, rfl⟩ := List.getElem?_eq_some_iff.mp htimer
  rw [List.append_assoc, List.singleton_append]
  exact (List.getElem_cons_eraseIdx_perm hlt).append_left s.queue

/-- Every step keeps the invariant. -/
theorem step {a : DispatcherAction M} (h : s.Sound) (hs : s.step a = some s') : s'.Sound := by
  cases a with
  | createChannel row =>
    simp only [Dispatcher.step] at hs
    split at hs <;> cases hs
    exact h.createChannel row
  | updateChannel id req now config checked =>
    cases hs
    exact h.updateChannel id req now config checked
  | deleteChannel id =>
    cases hs
    exact h.deleteChannel id
  | emit event level msg =>
    cases hs
    exact h.emit event level msg
  | submit caller =>
    simp only [Dispatcher.step] at hs
    split at hs
    · next hcaller =>
      cases hs
      exact h.submit hcaller
    · cases hs
  | take =>
    simp only [Dispatcher.step] at hs
    split at hs
    · next hw hq =>
      cases hs
      exact h.take hw hq
    · cases hs
  | look =>
    simp only [Dispatcher.step] at hs
    split at hs
    · next hw =>
      cases hs
      exact h.look hw
    · cases hs
  | deliver error =>
    simp only [Dispatcher.step] at hs
    split at hs
    · next hw =>
      cases hs
      exact h.deliver hw error
    · cases hs
  | record now written =>
    simp only [Dispatcher.step] at hs
    split at hs
    · next hw =>
      cases hs
      exact h.record hw now written
    · cases hs
  | fire timer =>
    simp only [Dispatcher.step] at hs
    split at hs
    · next htimer =>
      split at hs <;> cases hs
      exact h.fire htimer
    · cases hs

end Dispatcher.Sound

/-! ## Every step of the dispatcher leaves less to do -/

/-- The steps that a notification in the queue may still need: four for each attempt, the last of
which is that of the timer or the recording of the result. -/
def Notification.steps (x : Notification M) : ℕ := 4 * (retries + 1 - x.attempt)

/-- The steps that the thread may still need for what it is at. -/
def Worker.steps : Worker M → ℕ
  | .idle => 0
  | .took x => x.steps - 1
  | .delivering x _ => x.steps - 2
  | .recording _ _ _ => 1

/-- The steps that a notification may need once it is accepted. -/
def stepsEach : ℕ := 4 * (retries + 1)

namespace Dispatcher

/-- The steps that the dispatcher may still need. -/
def potential (s : Dispatcher M) : ℕ :=
  (s.queue.map Notification.steps).sum +
    ((s.timers.map Notification.steps).sum + s.timers.length) + s.worker.steps

variable {s s' : Dispatcher M} {x : Notification M}

lemma steps_pos (h : x.attempt ≤ retries) : 4 ≤ x.steps := by
  unfold Notification.steps
  omega

/-- A step of the dispatcher takes from what there is to do, and an accepted notification adds to
it. -/
lemma potential_step {a : DispatcherAction M} (h : s.Sound) (hs : s.step a = some s') :
    s'.potential + stepsEach * s.accepted + (if a.dispatches then 1 else 0) ≤
      s.potential + stepsEach * s'.accepted := by
  cases a with
  | createChannel row =>
    simp only [step] at hs
    split at hs <;> cases hs
    exact le_rfl
  | updateChannel id req now config checked =>
    cases hs
    exact le_rfl
  | deleteChannel id =>
    cases hs
    exact le_rfl
  | emit event level msg =>
    cases hs
    unfold emit
    split <;> exact le_rfl
  | submit caller =>
    simp only [step] at hs
    split at hs
    · cases hs
      unfold submit
      simp only
      split
      · next id rest msg _ _ =>
        have hnew : (⟨id, msg, 0, s.accepted⟩ : Notification M).steps = stepsEach := rfl
        simp only [potential, List.map_append, List.sum_append, List.map_singleton,
          List.sum_singleton, hnew, Nat.mul_succ, DispatcherAction.dispatches,
          Bool.false_eq_true, if_false]
        omega
      · exact le_rfl
    · cases hs
  | take =>
    simp only [step] at hs
    split at hs
    · next x rest hw hq =>
      cases hs
      have hpos := steps_pos (h.trying x (by simp [toSend, hq])).attempt_le
      simp only [potential, hw, hq, Worker.steps, List.map_cons, List.sum_cons,
        DispatcherAction.dispatches, if_true]
      omega
    · cases hs
  | look =>
    simp only [step] at hs
    split at hs
    · next x hw =>
      cases hs
      have hpos := steps_pos (h.trying x (by simp [toSend, hw, Worker.toSend])).attempt_le
      simp only [look, potential, hw, Worker.steps, DispatcherAction.dispatches, if_true]
      split
      · split <;> simp only <;> omega
      · simp only
        omega
    · cases hs
  | deliver error =>
    simp only [step] at hs
    split at hs
    · next x channel hw =>
      cases hs
      have hattempt := (h.trying x (by simp [toSend, hw, Worker.toSend])).attempt_le
      have hpos := steps_pos hattempt
      unfold deliver
      simp only [potential, hw, Worker.steps, DispatcherAction.dispatches, if_true]
      split
      · next hagain =>
        rw [Bool.and_eq_true, decide_eq_true_eq] at hagain
        have hless : ({ x with attempt := x.attempt + 1 } : Notification M).steps + 4 =
            x.steps := by
          unfold Notification.steps
          simp only
          omega
        simp only [List.map_cons, List.sum_cons, List.length_cons]
        omega
      · simp only
        omega
    · cases hs
  | record now written =>
    simp only [step] at hs
    split at hs
    · next hw =>
      cases hs
      simp only [record, potential, hw, Worker.steps, DispatcherAction.dispatches, if_true]
      omega
    · cases hs
  | fire timer =>
    simp only [step] at hs
    split at hs
    · next x htimer =>
      split at hs <;> cases hs
      obtain ⟨hlt, rfl⟩ := List.getElem?_eq_some_iff.mp htimer
      have hsum := ((List.getElem_cons_eraseIdx_perm hlt).map Notification.steps).sum_eq
      have hlength := List.length_eraseIdx_add_one hlt
      rw [List.map_cons, List.sum_cons] at hsum
      simp only [potential, List.map_append, List.sum_append, List.map_singleton,
        List.sum_singleton, DispatcherAction.dispatches, if_true]
      omega
    · cases hs

/-- Over a run, the dispatcher makes so many steps at most for each notification. -/
lemma potential_run {as : List (DispatcherAction M)} (hrun : Run step anyStep s as s')
    (h : s.Sound) :
    s'.potential + stepsEach * s.accepted + as.countP DispatcherAction.dispatches ≤
      s.potential + stepsEach * s'.accepted := by
  induction hrun with
  | nil => exact le_rfl
  | @cons s s₁ s' a as _ hs _ ih =>
    have hfirst := potential_step h hs
    have hrest := ih (h.step hs)
    rw [List.countP_cons]
    omega

/-- As long as a notification is not settled, the dispatcher can make a step. -/
lemma exists_step (hpending : s.pending ≠ []) :
    ∃ a : DispatcherAction M, a.dispatches = true ∧ ∃ s', s.step a = some s' := by
  cases hw : s.worker with
  | took x => exact ⟨.look, rfl, s.look x, by simp only [step, hw]⟩
  | delivering x channel =>
    exact ⟨.deliver none, rfl, s.deliver x channel none, by simp only [step, hw]⟩
  | recording x channel error =>
    exact ⟨.record [] true, rfl, s.record x channel error [] true, by simp only [step, hw]⟩
  | idle =>
    cases hq : s.queue with
    | cons x rest =>
      exact ⟨.take, rfl, { s with worker := .took x, queue := rest }, by simp only [step, hw, hq]⟩
    | nil =>
      cases ht : s.timers with
      | cons x rest =>
        refine ⟨.fire 0, rfl, { s with queue := [x], timers := rest, worker := s.worker }, ?_⟩
        simp [step, ht, hq, maxsize]
      | nil =>
        refine absurd ?_ hpending
        simp only [pending, toSend, hw, hq, ht, Worker.toSend, Worker.toRecord, List.append_nil,
          List.map_nil]

/-- What is in the queue stays there until the thread takes it. -/
lemma mem_queue_of_step {a : DispatcherAction M} (hs : s.step a = some s') (hx : x ∈ s.queue) :
    x ∈ s'.queue ∨ s'.worker = .took x := by
  cases a with
  | createChannel row =>
    simp only [step] at hs
    split at hs <;> cases hs
    exact Or.inl hx
  | updateChannel id req now config checked =>
    cases hs
    exact Or.inl hx
  | deleteChannel id =>
    cases hs
    exact Or.inl hx
  | emit event level msg =>
    cases hs
    unfold emit
    split <;> exact Or.inl hx
  | submit caller =>
    simp only [step] at hs
    split at hs
    · cases hs
      unfold submit
      simp only
      split
      · exact Or.inl (List.mem_append_left _ hx)
      · exact Or.inl hx
    · cases hs
  | take =>
    simp only [step] at hs
    split at hs
    · next y rest hw hq =>
      cases hs
      rw [hq, List.mem_cons] at hx
      obtain rfl | hx := hx
      · exact Or.inr rfl
      · exact Or.inl hx
    · cases hs
  | look =>
    simp only [step] at hs
    split at hs
    · cases hs
      unfold look
      split
      · split <;> exact Or.inl hx
      · exact Or.inl hx
    · cases hs
  | deliver error =>
    simp only [step] at hs
    split at hs
    · cases hs
      unfold deliver
      simp only
      split <;> exact Or.inl hx
    · cases hs
  | record now written =>
    simp only [step] at hs
    split at hs <;> cases hs
    exact Or.inl hx
  | fire timer =>
    simp only [step] at hs
    split at hs
    · split at hs <;> cases hs
      exact Or.inl (List.mem_append_left _ hx)
    · cases hs

end Dispatcher

/-- The channel is removed or disabled. -/
def DispatcherAction.turnsOff (id : ℕ) : DispatcherAction M → Bool
  | .updateChannel id' req _ _ _ => decide (id = id') && !req.enabled
  | .deleteChannel id' => decide (id = id')
  | .createChannel _ | .emit _ _ _ | .submit _ | .take | .look | .deliver _ | .record _ _
  | .fire _ => false

namespace Dispatcher

variable {s s' : Dispatcher M} {id : ℕ}

lemma turnsOff_of_step {a : DispatcherAction M} (hs : s.step a = some s')
    (hid : id ∈ s'.turnedOff) : id ∈ s.turnedOff ∨ a.turnsOff id = true := by
  cases a with
  | createChannel row =>
    simp only [step] at hs
    split at hs <;> cases hs
    exact Or.inl hid
  | updateChannel id' req now config checked =>
    cases hs
    cases hon : req.enabled with
    | true => exact Or.inl (by simpa [updateChannel, hon] using hid)
    | false =>
      have hid : id = id' ∨ id ∈ s.turnedOff := by simpa [updateChannel, hon] using hid
      obtain rfl | hid := hid
      · exact Or.inr (by simp [DispatcherAction.turnsOff, hon])
      · exact Or.inl hid
  | deleteChannel id' =>
    cases hs
    obtain rfl | hid := List.mem_cons.mp hid
    · exact Or.inr (decide_eq_true rfl)
    · exact Or.inl hid
  | emit event level msg =>
    cases hs
    unfold emit at hid
    split at hid <;> exact Or.inl hid
  | submit caller =>
    simp only [step] at hs
    split at hs
    · cases hs
      unfold submit at hid
      simp only at hid
      split at hid <;> exact Or.inl hid
    · cases hs
  | take =>
    simp only [step] at hs
    split at hs <;> cases hs
    exact Or.inl hid
  | look =>
    simp only [step] at hs
    split at hs
    · cases hs
      unfold look at hid
      split at hid
      · split at hid <;> exact Or.inl hid
      · exact Or.inl hid
    · cases hs
  | deliver error =>
    simp only [step] at hs
    split at hs
    · cases hs
      unfold deliver at hid
      simp only at hid
      split at hid <;> exact Or.inl hid
    · cases hs
  | record now written =>
    simp only [step] at hs
    split at hs <;> cases hs
    exact Or.inl hid
  | fire timer =>
    simp only [step] at hs
    split at hs
    · split at hs <;> cases hs
      exact Or.inl hid
    · cases hs

/-- A channel that is off after a run was off before or is turned off in it. -/
lemma turnsOff_of_run {as : List (DispatcherAction M)} (hrun : Run step anyStep s as s')
    (hid : id ∈ s'.turnedOff) : id ∈ s.turnedOff ∨ ∃ a ∈ as, a.turnsOff id = true := by
  induction hrun with
  | nil => exact Or.inl hid
  | @cons s s₁ s' a as _ hs _ ih =>
    obtain hid | ⟨b, hb, hoff⟩ := ih hid
    · exact (turnsOff_of_step hs hid).imp_right fun hoff => ⟨a, List.mem_cons_self, hoff⟩
    · exact Or.inr ⟨b, List.mem_cons_of_mem a hb, hoff⟩

lemma Sound.tries_le (h : s.Sound) (n : ℕ) : tries s.attempts n ≤ retries + 1 := by
  by_cases hn : n < s.accepted
  · have hmem : n ∈ s.pending ++ s.settled := by
      refine List.count_pos_iff.mp ?_
      rw [h.places n, if_pos hn]
      exact Nat.one_pos
    rw [pending, settled, List.mem_append, List.mem_append, List.mem_append] at hmem
    obtain (hmem | hmem) | hmem | hmem := hmem <;> obtain ⟨x, hx, rfl⟩ := List.mem_map.mp hmem
    · have htrying := h.trying x hx
      exact htrying.tries_eq.trans_le (Nat.le_succ_of_le htrying.attempt_le)
    · exact (h.recording x hx).tries_le
    · exact (h.results x hx).tries_le
    · have htrying := (h.abandoned x hx).1
      exact htrying.tries_eq.trans_le (Nat.le_succ_of_le htrying.attempt_le)
  · have hzero : tries s.attempts n = 0 := by
      refine List.countP_eq_zero.mpr fun a ha heq => ?_
      have hlt := h.unaccepted a ha
      have hticket : a.ticket = n := of_decide_eq_true heq
      omega
    omega

end Dispatcher

end Habeny.Notify
