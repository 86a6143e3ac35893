import Habeny.Alerts.Manager
import Habeny.Auth.Users
import Habeny.Hosts.Answers
import Habeny.Lib.Table
import Habeny.Lib.Transition
import Mathlib.Data.Char
import Mathlib.Data.List.Lex
import Mathlib.Data.List.Sort

/-!
# Alerts for hosts that cannot be reached

A check asks every host, in the order of their names.  It fires the alert of a host for which
there is a `HostError`, under the name of the host, and clears the alert of one that answers; any
other exception ends the check.  Hosts are added, renamed and deleted between the checks, and
these leave the alerts alone.

`check_matches_iff` says which checks leave the alerts that they should: after any run in which no
host is renamed or deleted while its alert is active, those in which no host but the last one
raises an exception that is not handled.
-/

namespace Habeny.Hosts.Reachability

open Habeny.Lib Habeny.Alerts

/-! ## The table of the hosts -/

/-- A row of the table, with its token revealed. -/
structure HostRow extends Host where
  lastStatus : Text
  lastError : Option Text
  version : Option Text
  deriving DecidableEq

/-- A key of a row: its id, or its name without its case. -/
inductive UniqueKey where
  | id (n : ℕ)
  | name (t : Text)
  deriving DecidableEq

def HostRow.keys (r : HostRow) : List UniqueKey := [.id r.id, .name (Auth.nocase r.name)]

/-- Change a row if it is the one with an id. -/
def onRow (id : ℕ) (f : HostRow → HostRow) (r : HostRow) : HostRow := if r.id = id then f r else r

lemma onRow_id {id : ℕ} {f : HostRow → HostRow} (hf : ∀ r, (f r).id = r.id) (r : HostRow) :
    (onRow id f r).id = r.id := by
  rw [onRow]
  split_ifs
  · exact hf r
  · rfl

lemma onRow_toHost {id : ℕ} {f : HostRow → HostRow} (hf : ∀ r, (f r).toHost = r.toHost)
    (r : HostRow) : (onRow id f r).toHost = r.toHost := by
  rw [onRow]
  split_ifs
  · exact hf r
  · rfl

/-- The table; an id is not used again. -/
structure HostTable where
  table : Table HostRow HostRow.keys
  lastId : ℕ
  ids_le : ∀ r ∈ table.rows, r.id ≤ lastId

namespace HostTable

abbrev rows (t : HostTable) : List HostRow := t.table.rows

/-- The hosts in the order of their names (`list_hosts`). -/
def byName (t : HostTable) : List HostRow :=
  t.rows.insertionSort fun a b => Auth.nocase a.name ≤ Auth.nocase b.name

def get (t : HostTable) (id : ℕ) : Option HostRow := t.rows.find? fun r => decide (r.id = id)

/-- `INSERT`, of a row with the next id. -/
def insert (t : HostTable) (r : HostRow) (hid : r.id = t.lastId + 1) : Option HostTable :=
  match h : t.table.insert r with
  | none => none
  | some table =>
    some
      { table
        lastId := t.lastId + 1
        ids_le := by
          intro r' hr'
          rw [Table.insert_rows h, List.mem_append, List.mem_singleton] at hr'
          rcases hr' with hr' | rfl
          · exact Nat.le_succ_of_le (t.ids_le r' hr')
          · exact hid.le }

/-- `UPDATE`, of the row with an id, which stays as it is. -/
def update (t : HostTable) (id : ℕ) (f : HostRow → HostRow) (hf : ∀ r, (f r).id = r.id) :
    Option HostTable :=
  match h : t.table.update (onRow id f) with
  | none => none
  | some table =>
    some
      { table
        lastId := t.lastId
        ids_le := by
          intro r' hr'
          rw [Table.update_rows h] at hr'
          obtain ⟨r, hr, rfl⟩ := List.mem_map.mp hr'
          exact onRow_id hf r ▸ t.ids_le r hr }

/-- `DELETE` -/
def delete (t : HostTable) (id : ℕ) : HostTable where
  table := t.table.filter fun r => decide (r.id ≠ id)
  lastId := t.lastId
  ids_le := fun r hr => t.ids_le r (List.mem_of_mem_filter hr)

/-- `UPDATE`, of columns that are not those of the host. -/
def note (t : HostTable) (id : ℕ) (f : HostRow → HostRow) (hf : ∀ r, (f r).toHost = r.toHost) :
    HostTable where
  table := t.table.map (onRow id f) fun r => by
    rw [HostRow.keys, HostRow.keys, onRow_toHost hf]
  lastId := t.lastId
  ids_le := by
    intro r' hr'
    obtain ⟨r, hr, rfl⟩ := List.mem_map.mp hr'
    rw [onRow_toHost hf]
    exact t.ids_le r hr

variable {t t' : HostTable}

lemma insert_rows {r : HostRow} {hid : r.id = t.lastId + 1} (h : t.insert r hid = some t') :
    t'.rows = t.rows ++ [r] := by
  rw [insert] at h
  split at h
  · cases h
  · next hinsert =>
    cases h
    exact Table.insert_rows hinsert

lemma update_rows {id : ℕ} {f : HostRow → HostRow} {hf : ∀ r, (f r).id = r.id}
    (h : t.update id f hf = some t') : t'.rows = t.rows.map (onRow id f) := by
  rw [update] at h
  split at h
  · cases h
  · next hupdate =>
    cases h
    exact Table.update_rows hupdate

@[simp] lemma delete_rows (id : ℕ) :
    (t.delete id).rows = t.rows.filter fun r => decide (r.id ≠ id) := rfl

@[simp] lemma note_hosts (id : ℕ) (f : HostRow → HostRow) (hf : ∀ r, (f r).toHost = r.toHost) :
    (t.note id f hf).rows.map HostRow.toHost = t.rows.map HostRow.toHost := by
  change (t.rows.map (onRow id f)).map HostRow.toHost = _
  rw [List.map_map]
  exact List.map_congr_left fun r _ => onRow_toHost hf r

/-- No two hosts have the same name. -/
lemma names_nodup (t : HostTable) : (t.rows.map fun r => r.name).Nodup := by
  have hkeys : ((t.rows.map fun r => r.name).map
      fun name => UniqueKey.name (Auth.nocase name)).Nodup := by
    rw [List.map_map, List.map_eq_flatMap]
    refine t.table.unique.sublist (List.Sublist.flatMap_right _ fun r _ => ?_)
    exact List.sublist_cons_self ..
  exact hkeys.of_map _

lemma byName_perm (t : HostTable) : t.byName.Perm t.rows := List.perm_insertionSort ..

lemma mem_byName {r : HostRow} : r ∈ t.byName ↔ r ∈ t.rows := t.byName_perm.mem_iff

lemma byName_nodup (t : HostTable) : (t.byName.map fun r => r.name).Nodup :=
  (t.byName_perm.map _).nodup_iff.mpr t.names_nodup

end HostTable

/-! ## Adding and changing hosts -/

/-- Remove the blanks at both ends (`str.strip`). -/
def strip (t : Text) : Text :=
  (t.dropWhile fun c => CodeText.isSpace c.toNat).rdropWhile fun c => CodeText.isSpace c.toNat

def normalizeUrl (env : Env) (url : Text) : Except Failure Text :=
  match env.urlsplit ((strip url).rstrip '/') with
  | .error e => .error (.raised e)
  | .ok parts =>
    if parts.scheme ∉ ["https".toList, "http".toList] ∨ (parts.hostname.filter (· ≠ [])) = none then
      .error (.host "URL: https://host:port of the other Habeny".toList)
    else if parts.path ∉ [[], "/api".toList] then
      .error (.host "URL: just https://host:port, without a path".toList)
    else .ok (parts.scheme ++ "://".toList ++ parts.netloc)

/-- A text that is given and not empty. -/
def given (t : Option Text) : Option Text := t.filter (· ≠ [])

def nameTaken (name : Text) : Failure :=
  .host ("a host named '".toList ++ name ++ "' exists".toList)

/-- Add a host that answers (`add_host`). -/
def addHost (env : Env) (first second : Peer) (t : HostTable) (name url token : Text)
    (fingerprint : Option Text) (teamId : Option ℕ) : Except Failure HostTable := do
  let url ← normalizeUrl env url
  let fingerprint := given (some (env.upper (strip (fingerprint.getD []))))
  let host : Host := { id := t.lastId + 1, name, url, token, fingerprint, teamId }
  let info ← probe env first second host
  match env.bind info.version with
  | none => .error (.raised ⟨.other, "type is not supported".toList⟩)
  | some version =>
    match t.insert { host with lastStatus := "ok".toList, lastError := none, version } rfl with
    | none => .error (nameTaken name)
    | some t' => .ok t'

/-- Change a host (`update_host`); nothing when there is none. -/
def updateHost (env : Env) (first second : Peer) (t : HostTable) (id : ℕ) (name : Text)
    (teamId : Option ℕ) (token fingerprint : Option Text) : Except Failure (Option HostTable) :=
  match t.get id with
  | none => .ok none
  | some current => do
    let token' := (given token).getD current.token
    let fingerprint' :=
      match given ((given fingerprint).map fun fp => env.upper (strip fp)) with
      | some fp => some fp
      | none => current.fingerprint
    if (given token).isSome || (given fingerprint).isSome then
      let _ ← probe env first second
        { current.toHost with token := token', fingerprint := fingerprint' }
    match t.update id
        (fun r => { r with name, teamId, token := token', fingerprint := fingerprint' })
        (fun _ => rfl) with
    | none => .error (nameTaken name)
    | some t' => .ok (some t')

/-! ## Checks -/

/-- `record_check`: what the database does not take is not written. -/
def recordCheck (env : Env) (t : HostTable) (id : ℕ) (error : Option Text) (version : JsonValue) :
    HostTable :=
  match env.bind version with
  | none => t
  | some version =>
    t.note id
      (fun r =>
        { r with
          lastStatus := if (given error).isSome then "error".toList else "ok".toList
          lastError := error
          version := if version.isSome then version else r.version })
      fun _ => rfl

structure System where
  hosts : HostTable
  active : Active
  objects : ℕ

/-- A check that is going on or has ended: the hosts that it has asked, and the exception that
ended it. -/
structure Check where
  system : System
  examined : List ℕ
  raised : Option Raised

def unreachableName : Text := "host_unreachable".toList

def System.fireUnreachable (s : System) (h : HostRow) (error now : Text) : System :=
  let made : Alert :=
    { object := s.objects
      name := unreachableName
      severity := .critical
      message :=
        "Host ".toList ++ h.name ++ " (".toList ++ h.url ++ ") is unreachable: ".toList ++ error
      target := some h.name
      since := now
      details := [(.lit "url", .str (h.url.map Char.toNat))] }
  { s with active := (fire s.active made (some "/hosts".toList)).1, objects := s.objects + 1 }

def health : Text := "system/health".toList

/-- One host of a check. -/
def checkHost (env : Env) (peers : ℕ → Peer) (now : Text) (h : HostRow) (c : Check) : Check :=
  let c := { c with examined := c.examined ++ [h.id] }
  match getJson env (peers h.id) h.toHost health with
  | .error (.host error) =>
    let hosts := recordCheck env c.system.hosts h.id (some error) .null
    { c with system := { c.system with hosts }.fireUnreachable h error now }
  | .error (.raised e) => { c with raised := some e }
  | .ok payload =>
    match getKey (.lit "version") payload with
    | .error e => { c with raised := some e }
    | .ok version =>
      let hosts := recordCheck env c.system.hosts h.id none version
      let active := (clear c.system.active unreachableName (some h.name)).1
      { c with system := { c.system with hosts, active } }

/-- The hosts of a check, until one raises an exception. -/
def checkHosts (env : Env) (peers : ℕ → Peer) (now : Text) : List HostRow → Check → Check
  | [], c => c
  | h :: rest, c =>
    let c := checkHost env peers now h c
    if c.raised.isSome then c else checkHosts env peers now rest c

/-! ## Runs -/

inductive Action where
  | add (name url token : Text) (fingerprint : Option Text) (teamId : Option ℕ)
      (first second : Peer)
  | update (id : ℕ) (name : Text) (teamId : Option ℕ) (token fingerprint : Option Text)
      (first second : Peer)
  | delete (id : ℕ)
  | check (peers : ℕ → Peer) (now : Text)

namespace System

/-- No alert is active. -/
def start (hosts : HostTable) : System := ⟨hosts, fun _ => none, 0⟩

/-- Ask every host (`check_all`), where `peers` are the other ends. -/
def checkAll (env : Env) (peers : ℕ → Peer) (now : Text) (s : System) : Check :=
  checkHosts env peers now s.hosts.byName ⟨s, [], none⟩

/-- A change that is refused leaves everything as it is, and is no step. -/
def step (env : Env) (s : System) : Action → Option System
  | .add name url token fingerprint teamId first second =>
    match addHost env first second s.hosts name url token fingerprint teamId with
    | .ok hosts => some { s with hosts }
    | .error _ => none
  | .update id name teamId token fingerprint first second =>
    match updateHost env first second s.hosts id name teamId token fingerprint with
    | .ok (some hosts) => some { s with hosts }
    | _ => none
  | .delete id => some { s with hosts := s.hosts.delete id }
  | .check peers now => some (s.checkAll env peers now).system

end System

/-! ## What a check should do -/

/-- The key of the alert for a host. -/
def HostRow.alertKey (r : HostRow) : Text := keyOf unreachableName (some r.name)

/-- There is a `HostError` for a host. -/
def foundUnreachable (env : Env) (peers : ℕ → Peer) (h : Host) : Bool :=
  match getJson env (peers h.id) h health with
  | .error (.host _) => true
  | _ => false

/-- Every host was asked; and the active alerts, when the check has completed, are those of the
hosts that were found unreachable. -/
structure Matches (env : Env) (peers : ℕ → Peer) (before : System) (c : Check) : Prop where
  examined : c.examined = before.hosts.byName.map fun r => r.id
  alerts : c.raised = none → ∀ k, (c.system.active k).isSome = true ↔
    ∃ r ∈ c.system.hosts.rows, r.alertKey = k ∧ foundUnreachable env peers r.toHost = true

/-- No host is renamed or deleted while its alert is active. -/
def Settled (s : System) : Action → Prop
  | .update id name _ _ _ _ _ =>
    ∀ r ∈ s.hosts.rows, r.id = id → (s.active r.alertKey).isSome = true → r.name = name
  | .delete id => ∀ r ∈ s.hosts.rows, r.id = id → s.active r.alertKey = none
  | _ => True

/-- Different targets have different keys. -/
lemma keyOf_injective (name : Text) :
    Function.Injective fun target => keyOf name (some target) := by
  intro target target' h
  cases target <;> cases target' <;> simp_all [keyOf]

lemma alertKey_inj {r r' : HostRow} : r.alertKey = r'.alertKey ↔ r.name = r'.name :=
  ⟨fun h => keyOf_injective _ h, fun h => by rw [HostRow.alertKey, h]; rfl⟩

/-! ## One host -/

section CheckHost

variable {env : Env} {peers : ℕ → Peer} {now : Text} {h : HostRow} {c : Check}

lemma recordCheck_hosts (t : HostTable) (id : ℕ) (error : Option Text) (version : JsonValue) :
    (recordCheck env t id error version).rows.map HostRow.toHost = t.rows.map HostRow.toHost := by
  rw [recordCheck]
  split
  · rfl
  · exact HostTable.note_hosts ..

/-- What comes of one host: it is unreachable, an exception goes through, or it has answered. -/
lemma checkHost_cases :
    (∃ error, getJson env (peers h.id) h.toHost health = .error (.host error) ∧
      checkHost env peers now h c =
        { c with
          examined := c.examined ++ [h.id]
          system := { c.system with
            hosts := recordCheck env c.system.hosts h.id (some error) .null }.fireUnreachable
              h error now }) ∨
    (∃ e, (peers h.id).handled env h.toHost health = false ∧
      checkHost env peers now h c =
        { c with examined := c.examined ++ [h.id], raised := some e }) ∨
    ∃ payload version, getJson env (peers h.id) h.toHost health = .ok payload ∧
      isObject payload = true ∧
      checkHost env peers now h c =
        { c with
          examined := c.examined ++ [h.id]
          system := { c.system with
            hosts := recordCheck env c.system.hosts h.id none version
            active := (clear c.system.active unreachableName (some h.name)).1 } } := by
  cases hjson : getJson env (peers h.id) h.toHost health with
  | error f =>
    cases f with
    | host error => exact .inl ⟨error, rfl, by rw [checkHost, hjson]⟩
    | raised e =>
      refine .inr (.inl ⟨e, ?_, by rw [checkHost, hjson]⟩)
      rw [← getJson_handled, hjson]
      rfl
  | ok payload =>
    cases hkey : getKey (.lit "version") payload with
    | error e =>
      refine .inr (.inl ⟨e, ?_, by rw [checkHost, hjson]; simp only [hkey]⟩)
      rw [← getJson_handled, hjson, resultHandled]
      cases payload <;> first | rfl | cases hkey
    | ok version =>
      refine .inr (.inr ⟨payload, version, rfl, ?_, by rw [checkHost, hjson]; simp only [hkey]⟩)
      cases payload <;> first | rfl | cases hkey

lemma checkHost_examined : (checkHost env peers now h c).examined = c.examined ++ [h.id] := by
  obtain ⟨_, _, heq⟩ | ⟨_, _, heq⟩ | ⟨_, _, _, _, heq⟩ := checkHost_cases
  · rw [heq]
  · rw [heq]
  · rw [heq]

lemma checkHost_hosts : (checkHost env peers now h c).system.hosts.rows.map HostRow.toHost =
    c.system.hosts.rows.map HostRow.toHost := by
  obtain ⟨_, _, heq⟩ | ⟨_, _, heq⟩ | ⟨_, _, _, _, heq⟩ := checkHost_cases
  · rw [heq]
    exact recordCheck_hosts ..
  · rw [heq]
  · rw [heq]
    exact recordCheck_hosts ..

/-- A host raises an exception exactly if what comes of it is not handled. -/
lemma checkHost_raised (hc : c.raised = none) :
    (checkHost env peers now h c).raised = none ↔
      (peers h.id).handled env h.toHost health = true := by
  obtain ⟨_, hjson, heq⟩ | ⟨_, hhandled, heq⟩ | ⟨_, _, hjson, hobject, heq⟩ := checkHost_cases
  · rw [heq, ← getJson_handled, hjson]
    exact iff_of_true hc rfl
  · rw [heq, hhandled]
    simp
  · rw [heq, ← getJson_handled, hjson]
    exact iff_of_true hc hobject

/-- The alerts of other hosts stay. -/
lemma checkHost_active_of_ne {k : Text} (hk : k ≠ h.alertKey) :
    (checkHost env peers now h c).system.active k = c.system.active k := by
  obtain ⟨_, _, heq⟩ | ⟨_, _, heq⟩ | ⟨_, _, _, _, heq⟩ := checkHost_cases
  · rw [heq]
    exact Function.update_of_ne hk ..
  · rw [heq]
  · rw [heq]
    exact Function.update_of_ne hk ..

/-- The alert of the host is as it should be, unless there was an exception. -/
lemma checkHost_active_self (hraised : (checkHost env peers now h c).raised = none) :
    ((checkHost env peers now h c).system.active h.alertKey).isSome =
      foundUnreachable env peers h.toHost := by
  obtain ⟨_, hjson, heq⟩ | ⟨_, _, heq⟩ | ⟨_, _, hjson, _, heq⟩ := checkHost_cases
  · rw [heq, foundUnreachable, hjson]
    exact congrArg Option.isSome (Function.update_self h.alertKey (some _) c.system.active)
  · rw [heq] at hraised
    cases hraised
  · rw [heq, foundUnreachable, hjson]
    exact congrArg Option.isSome (Function.update_self h.alertKey none c.system.active)

end CheckHost

/-! ## All hosts -/

section CheckHosts

variable {env : Env} {peers : ℕ → Peer} {now : Text} {hs : List HostRow} {c : Check}

lemma checkHosts_hosts (hs : List HostRow) (c : Check) :
    (checkHosts env peers now hs c).system.hosts.rows.map HostRow.toHost =
      c.system.hosts.rows.map HostRow.toHost := by
  induction hs generalizing c with
  | nil => rfl
  | cons h rest ih =>
    rw [checkHosts]
    split
    · exact checkHost_hosts
    · exact (ih _).trans checkHost_hosts

lemma checkHosts_active_of_ne {k : Text} (hk : ∀ h ∈ hs, h.alertKey ≠ k) (c : Check) :
    (checkHosts env peers now hs c).system.active k = c.system.active k := by
  induction hs generalizing c with
  | nil => rfl
  | cons h rest ih =>
    have hne : k ≠ h.alertKey := fun heq => hk h List.mem_cons_self heq.symm
    rw [checkHosts]
    split
    · exact checkHost_active_of_ne hne
    · rw [ih (fun h' hh' => hk h' (List.mem_cons_of_mem _ hh')), checkHost_active_of_ne hne]

/-- A check asks all hosts exactly if all but the last one are handled. -/
lemma checkHosts_examined (hc : c.raised = none) :
    (checkHosts env peers now hs c).examined = c.examined ++ hs.map (fun h => h.id) ↔
      ∀ h ∈ hs.dropLast, (peers h.id).handled env h.toHost health = true := by
  induction hs generalizing c with
  | nil => simp [checkHosts]
  | cons h rest ih =>
    rw [checkHosts]
    by_cases hhandled : (peers h.id).handled env h.toHost health = true
    · have hnext : (checkHost env peers now h c).raised = none := (checkHost_raised hc).mpr hhandled
      have hassoc : c.examined ++ (h :: rest).map (fun h => h.id) =
          (checkHost env peers now h c).examined ++ rest.map fun h => h.id := by
        rw [checkHost_examined, List.map_cons, List.append_cons]
      simp only [hnext, Option.isSome_none, Bool.false_eq_true, if_false, hassoc]
      rw [ih hnext]
      cases rest with
      | nil => rfl
      | cons h' rest => simp [hhandled]
    · have hstopped : (checkHost env peers now h c).raised.isSome = true := by
        rw [Option.isSome_iff_ne_none]
        exact fun heq => hhandled ((checkHost_raised hc).mp heq)
      simp only [hstopped, if_true, checkHost_examined]
      cases rest with
      | nil => simp
      | cons h' rest =>
        simp [hhandled]

/-- When a check has completed, the alert of every host is as it should be. -/
lemma checkHosts_active (hc : c.raised = none)
    (hdone : (checkHosts env peers now hs c).raised = none)
    (hnames : (hs.map fun h => h.name).Nodup) :
    ∀ h ∈ hs, ((checkHosts env peers now hs c).system.active h.alertKey).isSome =
      foundUnreachable env peers h.toHost := by
  induction hs generalizing c with
  | nil => exact fun h hh => absurd hh List.not_mem_nil
  | cons h rest ih =>
    rw [checkHosts] at hdone ⊢
    obtain ⟨hnew, hnames⟩ := List.nodup_cons.mp hnames
    split at hdone
    · next hstopped =>
      rw [hdone] at hstopped
      cases hstopped
    · next hgoes =>
      rw [if_neg hgoes]
      have hnext : (checkHost env peers now h c).raised = none := by simpa using hgoes
      intro h' hh'
      rcases List.mem_cons.mp hh' with rfl | hh'
      · rw [checkHosts_active_of_ne, checkHost_active_self hnext]
        intro h'' hh'' hkey
        exact hnew (List.mem_map.mpr ⟨h'', hh'', alertKey_inj.mp hkey⟩)
      · exact ih hnext hdone hnames h' hh'

end CheckHosts

/-! ## What a run keeps -/

/-- Every alert is one for a host that there is. -/
def Known (s : System) : Prop :=
  ∀ k, (s.active k).isSome = true → ∃ r ∈ s.hosts.rows, r.alertKey = k

/-- The alert of a host depends on what stays of it in a check. -/
lemma exists_alertKey_iff {t t' : HostTable}
    (h : t'.rows.map HostRow.toHost = t.rows.map HostRow.toHost) (P : Host → Prop) :
    (∃ r ∈ t'.rows, P r.toHost) ↔ ∃ r ∈ t.rows, P r.toHost := by
  have hmem : ∀ host, host ∈ t'.rows.map HostRow.toHost ↔ host ∈ t.rows.map HostRow.toHost :=
    fun host => by rw [h]
  constructor
  · rintro ⟨r, hr, hP⟩
    obtain ⟨r', hr', heq⟩ := List.mem_map.mp ((hmem _).mp (List.mem_map_of_mem hr))
    exact ⟨r', hr', heq ▸ hP⟩
  · rintro ⟨r, hr, hP⟩
    obtain ⟨r', hr', heq⟩ := List.mem_map.mp ((hmem _).mpr (List.mem_map_of_mem hr))
    exact ⟨r', hr', heq ▸ hP⟩

section Known

variable {env : Env} {s s' : System}

lemma known_start (hosts : HostTable) : Known (.start hosts) := fun _ h => by cases h

lemma checkAll_hosts (peers : ℕ → Peer) (now : Text) :
    (s.checkAll env peers now).system.hosts.rows.map HostRow.toHost =
      s.hosts.rows.map HostRow.toHost := checkHosts_hosts ..

/-- An insertion keeps the other rows. -/
lemma addHost_rows {first second : Peer} {t t' : HostTable} {name url token : Text}
    {fingerprint : Option Text} {teamId : Option ℕ}
    (h : addHost env first second t name url token fingerprint teamId = .ok t') :
    ∀ r ∈ t.rows, r ∈ t'.rows := by
  simp only [addHost, bind, Except.bind] at h
  split at h
  · cases h
  split at h
  · cases h
  split at h
  · cases h
  split at h
  · cases h
  · next hinsert =>
    cases h
    intro r hr
    rw [HostTable.insert_rows hinsert]
    exact List.mem_append_left _ hr

/-- An update gives the host with the id its new name, and keeps the other rows. -/
lemma updateHost_rows {first second : Peer} {t t' : HostTable} {id : ℕ} {name : Text}
    {teamId : Option ℕ} {token fingerprint : Option Text}
    (h : updateHost env first second t id name teamId token fingerprint = .ok (some t')) :
    ∃ f : HostRow → HostRow, (∀ r, (f r).name = name) ∧ t'.rows = t.rows.map (onRow id f) := by
  rw [updateHost] at h
  split at h
  · cases h
  · simp only [bind, Except.bind] at h
    split at h
    · split at h
      · cases h
      · split at h
        · cases h
        · next hupdate =>
          cases h
          exact ⟨_, fun r => rfl, HostTable.update_rows hupdate⟩
    · split at h
      · cases h
      · next hupdate =>
        cases h
        exact ⟨_, fun r => rfl, HostTable.update_rows hupdate⟩

lemma Known.update {id : ℕ} {name : Text} {f : HostRow → HostRow} (h : Known s) {t : HostTable}
    (hsettled : ∀ r ∈ s.hosts.rows, r.id = id → (s.active r.alertKey).isSome = true → r.name = name)
    (hname : ∀ r, (f r).name = name) (hrows : t.rows = s.hosts.rows.map (onRow id f)) :
    Known { s with hosts := t } := by
  intro k hk
  obtain ⟨r, hr, rfl⟩ := h k hk
  refine ⟨onRow id f r, hrows ▸ List.mem_map_of_mem hr, ?_⟩
  rw [onRow]
  split_ifs with hid
  · rw [alertKey_inj, hname, hsettled r hr hid hk]
  · rfl

lemma Known.delete {id : ℕ} (h : Known s)
    (hsettled : ∀ r ∈ s.hosts.rows, r.id = id → s.active r.alertKey = none) :
    Known { s with hosts := s.hosts.delete id } := by
  intro k hk
  obtain ⟨r, hr, rfl⟩ := h k hk
  refine ⟨r, ?_, rfl⟩
  rw [HostTable.delete_rows, List.mem_filter, decide_eq_true_eq]
  refine ⟨hr, fun hid => ?_⟩
  rw [hsettled r hr hid] at hk
  cases hk

/-- A check fires alerts for hosts that there are, however it ends. -/
lemma Known.check (h : Known s) (peers : ℕ → Peer) (now : Text) :
    Known (s.checkAll env peers now).system := by
  intro k hk
  refine (exists_alertKey_iff (checkAll_hosts peers now)
    fun host => keyOf unreachableName (some host.name) = k).mpr ?_
  by_cases hhost : ∃ r ∈ s.hosts.rows, r.alertKey = k
  · exact hhost
  · have hsame : (s.checkAll env peers now).system.active k = s.active k :=
      checkHosts_active_of_ne (fun r hr heq => hhost ⟨r, HostTable.mem_byName.mp hr, heq⟩) _
    exact h k (hsame ▸ hk)

lemma step_known {a : Action} (h : Known s) (hsettled : Settled s a)
    (hstep : s.step env a = some s') : Known s' := by
  cases a with
  | add name url token fingerprint teamId first second =>
    simp only [System.step] at hstep
    split at hstep
    · next hadd =>
      cases hstep
      intro k hk
      obtain ⟨r, hr, hkey⟩ := h k hk
      exact ⟨r, addHost_rows hadd r hr, hkey⟩
    · cases hstep
  | update id name teamId token fingerprint first second =>
    simp only [System.step] at hstep
    split at hstep
    · next hupdate =>
      cases hstep
      obtain ⟨f, hname, hrows⟩ := updateHost_rows hupdate
      exact h.update hsettled hname hrows
    · cases hstep
  | delete id =>
    cases hstep
    exact h.delete hsettled
  | check peers now =>
    cases hstep
    exact h.check peers now

end Known

/-! ## Checks after a run -/

/-- A completed check leaves the right alerts, where every alert before was one for a host that
there is. -/
lemma Known.matches_alerts {env : Env} {s : System} (h : Known s) {peers : ℕ → Peer} {now : Text}
    (hdone : (s.checkAll env peers now).raised = none) (k : Text) :
    ((s.checkAll env peers now).system.active k).isSome = true ↔
      ∃ r ∈ s.hosts.rows, r.alertKey = k ∧ foundUnreachable env peers r.toHost = true := by
  have hactive := checkHosts_active (c := ⟨s, [], none⟩) rfl hdone s.hosts.byName_nodup
  constructor
  · intro hk
    obtain ⟨r, hr, rfl⟩ := (exists_alertKey_iff (checkAll_hosts peers now)
      fun host => keyOf unreachableName (some host.name) = k).mp (h.check peers now k hk)
    exact ⟨r, hr, rfl, hactive r (HostTable.mem_byName.mpr hr) ▸ hk⟩
  · rintro ⟨r, hr, rfl, hfound⟩
    exact hactive r (HostTable.mem_byName.mpr hr) ▸ hfound

/-- **Which checks leave the alerts that they should**, after a run in which no host is renamed or
deleted while its alert is active: those in which every host but the last one gives an object or
fails in a way that is handled. -/
theorem check_matches_iff {env : Env} {hosts : HostTable} {as : List Action} {s : System}
    (hrun : Run (System.step env) Settled (.start hosts) as s) (peers : ℕ → Peer) (now : Text) :
    Matches env peers s (s.checkAll env peers now) ↔
      ∀ h ∈ s.hosts.byName.dropLast, (peers h.id).handled env h.toHost health = true := by
  have hknown : Known s :=
    hrun.invariant (fun h hsettled hstep => step_known h hsettled hstep) (known_start hosts)
  rw [← @checkHosts_examined env peers now _ ⟨s, [], none⟩ rfl]
  refine ⟨fun h => h.examined, fun hexamined => ⟨hexamined, fun hdone k => ?_⟩⟩
  rw [hknown.matches_alerts hdone]
  exact (exists_alertKey_iff (checkAll_hosts peers now) fun host =>
    keyOf unreachableName (some host.name) = k ∧ foundUnreachable env peers host = true).symm

/-! ## Two hosts -/

/-- JSON as far as two answers need it. -/
def smallEnv : Env where
  loads := fun data =>
    if data = [0x7b, 0x7d] then .ok (.dict [])
    else if data = [0x5b, 0x5d] then .ok (.list [])
    else .error ⟨.value, "Expecting value: line 1 column 1 (char 0)".toList⟩
  str := fun _ => []
  bind := fun
    | .null => some none
    | _ => none
  upper := fun t => t.map Char.toUpper
  urlsplit := fun _ => .error ⟨.value, []⟩

/-- A host that answers with an empty object. -/
def answering : Peer where
  connect := .ok "AA".toList
  presentedAgain := .ok "AA".toList
  answer := fun _ => .ok (200, [0x7b, 0x7d])

/-- A host that takes no connection. -/
def refusing : Peer where
  connect := .error ⟨.os, "[Errno 111] Connection refused".toList⟩
  presentedAgain := .error ⟨.os, "[Errno 111] Connection refused".toList⟩
  answer := fun _ => .error ⟨.os, []⟩

def alpha : HostRow where
  id := 1
  name := "alpha".toList
  url := "http://alpha:8000".toList
  token := "hab_1".toList
  fingerprint := none
  teamId := none
  lastStatus := "ok".toList
  lastError := none
  version := none

def beta : HostRow := { alpha with id := 2, name := "beta".toList, url := "https://beta".toList }

def alphaAndBeta : HostTable := ⟨⟨[alpha, beta], by decide⟩, 2, by decide⟩

/-- The other ends while one host does not answer. -/
def allBut (id : ℕ) (n : ℕ) : Peer := if n = id then refusing else answering

/-- An alert for the host beta is cleared by the next check. -/
theorem check_matches_beta :
    ∃ s, Run (System.step smallEnv) Settled (.start alphaAndBeta) [.check (allBut 2) []] s ∧
      (s.active beta.alertKey).isSome = true ∧
      Matches smallEnv (allBut 3) s (s.checkAll smallEnv (allBut 3) []) := by
  have hrun : Run (System.step smallEnv) Settled (.start alphaAndBeta) [.check (allBut 2) []] _ :=
    .cons trivial rfl (.nil _)
  exact ⟨_, hrun, by decide, (check_matches_iff hrun (allBut 3) []).mpr (by decide)⟩

/-- A host is deleted while its alert is active, which stays after the next check; and a host that
refuses a connection in the clear keeps a check from asking the other one. -/
theorem stale_alert_and_host_not_asked :
    (∃ s, Run (System.step smallEnv) anyStep (.start alphaAndBeta)
        [.check (allBut 2) [], .delete 2] s ∧
      (s.checkAll smallEnv (allBut 3) []).raised = none ∧
      ¬Matches smallEnv (allBut 3) s (s.checkAll smallEnv (allBut 3) [])) ∧
    ¬Matches smallEnv (allBut 1) (.start alphaAndBeta)
      ((System.start alphaAndBeta).checkAll smallEnv (allBut 1) []) := by
  constructor
  · have hrun : Run (System.step smallEnv) anyStep (.start alphaAndBeta)
        [.check (allBut 2) [], .delete 2] _ := run_of_exec rfl
    refine ⟨_, hrun, by decide, fun h => ?_⟩
    have hstale := (h.alerts (by decide) beta.alertKey).mp (by decide)
    exact absurd hstale (by decide)
  · intro h
    exact absurd h.examined (by decide)

end Habeny.Hosts.Reachability
