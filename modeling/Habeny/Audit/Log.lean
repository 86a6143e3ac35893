import Habeny.Lib.Json
import Habeny.Lib.HashChain
import Habeny.Lib.Transition
import Mathlib.Data.List.Sort

/-!
# The audit log

Every entry stores the hash of the entry before it and a hash of its own, over that hash and
everything else in the entry.  Old entries are pruned; the id and the hash of the last pruned one
are kept in another table, as texts, and are the anchor from which the rest is verified.

Appending, recording and pruning each run in one immediate transaction, so whatever runs at the
same time is a sequence of them.  Verification finds the chain intact after every such sequence.
-/

namespace Habeny.Audit

open Habeny.Lib

/-- The hash function, and the canonical text of an entry's details. -/
structure AuditEnv (D : Type*) where
  sha256 : Text → Text
  canonicalDetails : D → Text

/-- A row of the table. -/
structure Entry where
  id : ℤ
  ts : Text
  action : Text
  status : Text
  user : Option Text
  token : Option Text
  ip : Option Text
  requestId : Option Text
  details : Text
  prevHash : Text
  hash : Text
  deriving DecidableEq

/-- The table, in the order of its primary key, and the anchor as it is stored. -/
@[ext]
structure AuditLog where
  entries : List Entry
  sorted : entries.Pairwise fun e e' => e.id < e'.id
  anchorId : Option Text
  anchorHash : Option Text

/-- Details as they are given: a text, or an object. -/
inductive Details (D : Type*) where
  | text (t : Text)
  | object (d : D)

/-- What an entry records. -/
structure Record (D : Type*) where
  ts : Text
  action : Text
  status : Text
  user : Option Text
  token : Option Text
  ip : Option Text
  requestId : Option Text
  details : Details D

variable {D : Type*}

/-! ## The link -/

def scalar : Option Text → JsonScalar
  | none => .null
  | some t => .text t

/-- The chain link (`entry_hash`). -/
def entryHash (env : AuditEnv D) (prevHash : Text) (id : ℤ) (ts action status : Text)
    (user token ip requestId : Option Text) (details : Text) : Text :=
  env.sha256 <| Json.dumps
    [.text prevHash, .int id, .text ts, .text action, .text status, scalar user, scalar token,
     scalar ip, scalar requestId, .text details]

/-- The hash of what an entry says. -/
def Entry.digest (env : AuditEnv D) (e : Entry) : Text :=
  entryHash env e.prevHash e.id e.ts e.action e.status e.user e.token e.ip e.requestId e.details

/-- An id and a hash: where the next entry goes. -/
abbrev Place := ℤ × Text

/-- An entry stands where it belongs, and its hash is that of what it says. -/
def Accepts (env : AuditEnv D) (place : Place) (e : Entry) : Prop :=
  e.id = place.1 + 1 ∧ e.prevHash = place.2 ∧ e.hash = e.digest env

instance (env : AuditEnv D) (place : Place) (e : Entry) : Decidable (Accepts env place e) :=
  inferInstanceAs (Decidable (_ ∧ _))

def Entry.place (e : Entry) : Place := (e.id, e.hash)

/-! ## The operations -/

def genesis : Text := List.replicate 64 '0'

namespace AuditLog

/-- A new database. -/
def empty : AuditLog :=
  { entries := [], sorted := List.Pairwise.nil, anchorId := none, anchorHash := none }

/-- The place before the first entry (`_anchor`). -/
def anchor (log : AuditLog) : Place :=
  ((log.anchorId.map Json.readInt).getD 0, log.anchorHash.getD genesis)

/-- The place after the last entry. -/
def lastPlace (log : AuditLog) : Place :=
  match log.entries.getLast? with
  | some last => last.place
  | none => log.anchor

def detailsText (env : AuditEnv D) : Details D → Text
  | .text t => t
  | .object d => env.canonicalDetails d

/-- The row that is inserted for a record. -/
def newEntry (env : AuditEnv D) (log : AuditLog) (r : Record D) : Entry :=
  let id := log.lastPlace.1 + 1
  let details := detailsText env r.details
  { id, ts := r.ts, action := r.action, status := r.status, user := r.user, token := r.token,
    ip := r.ip, requestId := r.requestId, details, prevHash := log.lastPlace.2,
    hash := entryHash env log.lastPlace.2 id r.ts r.action r.status r.user r.token r.ip r.requestId
      details }

/-- The last entry has the largest id. -/
lemma id_le_last (log : AuditLog) {e last : Entry} (hlast : log.entries.getLast? = some last)
    (he : e ∈ log.entries) : e.id ≤ last.id := by
  have hsorted := log.sorted
  obtain ⟨init, heq⟩ := List.getLast?_eq_some_iff.mp hlast
  rw [heq] at hsorted he
  rcases List.mem_append.mp he with he | he
  · exact (List.pairwise_append.mp hsorted).2.2 e he last (List.mem_singleton_self last) |>.le
  · rw [List.mem_singleton.mp he]

/-- An entry with the next id comes last. -/
lemma sorted_concat (log : AuditLog) {e' : Entry} (hid : e'.id = log.lastPlace.1 + 1) :
    (log.entries ++ [e']).Pairwise fun e e' => e.id < e'.id := by
  rw [List.pairwise_append]
  refine ⟨log.sorted, List.pairwise_singleton _ _, fun e he e'' he'' => ?_⟩
  rw [List.mem_singleton.mp he'', hid]
  cases hlast : log.entries.getLast? with
  | none =>
    rw [List.getLast?_eq_none_iff.mp hlast] at he
    exact absurd he List.not_mem_nil
  | some last =>
    have hle := log.id_le_last hlast he
    simp only [lastPlace, hlast, Entry.place]
    omega

lemma sorted_append (env : AuditEnv D) (log : AuditLog) (r : Record D) :
    (log.entries ++ [log.newEntry env r]).Pairwise fun e e' => e.id < e'.id :=
  log.sorted_concat rfl

/-- Add one entry; its id and hash are returned. -/
def append (env : AuditEnv D) (log : AuditLog) (r : Record D) : Place × AuditLog :=
  ((log.newEntry env r).place,
    { log with entries := log.entries ++ [log.newEntry env r], sorted := log.sorted_append env r })

/-- What the request knows: who, from where, and its id. -/
structure Context where
  user : Option Text
  token : Option Text
  ip : Option Text
  id : Option Text

/-- `user or ctx.get("user")`. -/
def orContext (user : Option Text) (ctx : Context) : Option Text :=
  match user with
  | some (c :: rest) => some (c :: rest)
  | _ => ctx.user

/-- Record an action, with who did it, from where, and the request id. -/
def record (env : AuditEnv D) (log : AuditLog) (ctx : Context) (action : Text) (details : Details D)
    (status : Text) (user : Option Text) (now : Text) : Place × AuditLog :=
  log.append env
    { ts := now, action, status, user := orContext user ctx, token := ctx.token, ip := ctx.ip,
      requestId := ctx.id, details }

/-- The entry up to which entries are pruned: the one with the largest id that is older. -/
def lastBefore (log : AuditLog) (before : Text) : Option Entry :=
  (log.entries.filter fun e => decide (e.ts < before)).getLast?

lemma sorted_after (log : AuditLog) (id : ℤ) :
    (log.entries.filter fun e => decide (id < e.id)).Pairwise fun e e' => e.id < e'.id :=
  log.sorted.filter _

/-- Delete entries older than `before`, with all those of smaller ids, and keep the id and the
hash of the last deleted one as the anchor. -/
def prune (log : AuditLog) (before : Text) (dryRun : Bool) : ℕ × AuditLog :=
  match log.lastBefore before with
  | none => (0, log)
  | some last =>
    let count := log.entries.countP fun e => decide (e.id ≤ last.id)
    if dryRun then (count, log)
    else
      (count,
        { entries := log.entries.filter fun e => decide (last.id < e.id)
          sorted := log.sorted_after last.id
          anchorId := some (Json.intText last.id)
          anchorHash := some last.hash })

/-! ## Verification -/

structure Problem where
  id : ℤ
  reason : Text
  deriving DecidableEq

structure Report where
  ok : Bool
  checked : ℕ
  anchorId : ℤ
  lastId : Option ℤ
  headHash : Option Text
  problem : Option Problem
  deriving DecidableEq

def missing (expected found : ℤ) : Text :=
  "entry ".toList ++ Json.intText expected ++ " is missing (next is ".toList ++ Json.intText found
    ++ ")".toList

def brokenLink : Text := "the link to the previous entry doesn't match".toList
def changed : Text := "the entry was changed after it was written".toList

/-- The loop of the verification, from a place on: where it ends, how many entries were checked,
and the first problem. -/
def verifyFrom (env : AuditEnv D) : Place → ℕ → List Entry → Place × ℕ × Option Problem
  | place, checked, [] => (place, checked, none)
  | place, checked, row :: rows =>
    let expected := place.1 + 1
    if row.id ≠ expected then
      ((expected, place.2), checked, some { id := expected, reason := missing expected row.id })
    else if row.prevHash ≠ place.2 then
      ((expected, place.2), checked, some { id := row.id, reason := brokenLink })
    else
      let digest := entryHash env place.2 row.id row.ts row.action row.status row.user row.token
        row.ip row.requestId row.details
      if digest ≠ row.hash then
        ((expected, place.2), checked, some { id := row.id, reason := changed })
      else verifyFrom env (expected, digest) (checked + 1) rows

/-- Recompute the chain. -/
def verify (env : AuditEnv D) (log : AuditLog) : Report :=
  match verifyFrom env log.anchor 0 log.entries with
  | (place, checked, none) =>
    { ok := true, checked, anchorId := log.anchor.1, lastId := some place.1,
      headHash := some place.2, problem := none }
  | (_, checked, some problem) =>
    { ok := false, checked, anchorId := log.anchor.1, lastId := none, headHash := none,
      problem := some problem }

/-- The entries are a chain from the anchor on. -/
def Linked (env : AuditEnv D) (log : AuditLog) : Prop :=
  Chain (Accepts env) Entry.place log.anchor log.entries

/-- The loop finds no problem exactly in a chain. -/
lemma verifyFrom_iff {env : AuditEnv D} {place : Place} {checked : ℕ} {rows : List Entry} :
    (verifyFrom env place checked rows).2.2 = none ↔ Chain (Accepts env) Entry.place place rows := by
  induction rows generalizing place checked with
  | nil => simp [verifyFrom]
  | cons row rows ih =>
    rw [verifyFrom, chain_cons]
    by_cases hid : row.id = place.1 + 1
    · rw [if_neg (not_not.mpr hid)]
      by_cases hprev : row.prevHash = place.2
      · rw [if_neg (not_not.mpr hprev)]
        have hdigest : entryHash env place.2 row.id row.ts row.action row.status row.user row.token
            row.ip row.requestId row.details = row.digest env := by rw [Entry.digest, hprev]
        simp only [hdigest]
        by_cases hhash : row.digest env = row.hash
        · rw [if_neg (not_not.mpr hhash), ih, hhash, Entry.place, hid]
          exact ⟨fun h => ⟨⟨hid, hprev, hhash.symm⟩, h⟩, fun h => h.2⟩
        · rw [if_pos hhash]
          exact iff_of_false (by simp) fun h => hhash h.1.2.2.symm
      · rw [if_pos hprev]
        exact iff_of_false (by simp) fun h => hprev h.1.2.1
    · rw [if_pos hid]
      exact iff_of_false (by simp) fun h => hid h.1.1

lemma verify_ok_iff {env : AuditEnv D} {log : AuditLog} :
    (log.verify env).ok = true ↔ log.Linked env := by
  have hloop := @verifyFrom_iff _ env log.anchor 0 log.entries
  rw [Linked, ← hloop, verify]
  rcases verifyFrom env log.anchor 0 log.entries with ⟨place, checked, _ | problem⟩
  · simp
  · simp

/-! ## What the operations keep -/

/-- The last place is the one after all entries. -/
lemma lastPlace_eq (log : AuditLog) :
    log.lastPlace = placeAfter Entry.place log.anchor log.entries := by
  unfold lastPlace
  rcases List.eq_nil_or_concat log.entries with h | ⟨init, last, h⟩
  · rw [h]
    rfl
  · rw [h, List.concat_eq_append, List.getLast?_concat, placeAfter_concat]

lemma append_linked {env : AuditEnv D} {log : AuditLog} (h : log.Linked env) (r : Record D) :
    (log.append env r).2.Linked env := by
  change Chain (Accepts env) Entry.place log.anchor (log.entries ++ [log.newEntry env r])
  rw [chain_concat, ← lastPlace_eq]
  exact ⟨h, rfl, rfl, rfl⟩

/-- Up to an entry all ids are smaller, and after it all are larger. -/
lemma filter_after {init rest : List Entry} {last : Entry}
    (h : (init ++ last :: rest).Pairwise fun e e' => e.id < e'.id) :
    ((init ++ last :: rest).filter fun e => decide (last.id < e.id)) = rest := by
  -- the ids are sorted, so the condition on ids cuts the log at one place
  obtain ⟨-, hrest, hinit⟩ := List.pairwise_append.mp h
  have hnone : (init.filter fun e => decide (last.id < e.id)) = [] := by
    refine List.filter_eq_nil_iff.mpr fun e he => ?_
    have hlt := hinit e he last List.mem_cons_self
    simpa using hlt.le
  have hall : (rest.filter fun e => decide (last.id < e.id)) = rest := by
    refine List.filter_eq_self.mpr fun e he => ?_
    simpa using (List.pairwise_cons.mp hrest).1 e he
  rw [List.filter_append, hnone, List.filter_cons_of_neg (by simp), hall, List.nil_append]

lemma prune_linked {env : AuditEnv D} {log : AuditLog} (h : log.Linked env) (before : Text)
    (dryRun : Bool) : (log.prune before dryRun).2.Linked env := by
  unfold prune
  cases hlast : log.lastBefore before with
  | none => exact h
  | some last =>
    cases dryRun with
    | true => exact h
    | false =>
      have hmem : last ∈ log.entries :=
        List.mem_of_mem_filter (List.mem_of_getLast? hlast)
      obtain ⟨init, rest, hentries⟩ := List.append_of_mem hmem
      have hchain : Chain (Accepts env) Entry.place log.anchor (init ++ last :: rest) :=
        hentries ▸ h
      have hsorted := hentries ▸ log.sorted
      -- the anchor is written as text and read back as the number it was
      change Chain (Accepts env) Entry.place (Json.readInt (Json.intText last.id), last.hash)
        (log.entries.filter fun e => decide (last.id < e.id))
      rw [Json.readInt_intText, hentries, filter_after hsorted]
      exact (chain_append.mp hchain).2.2

/-! ## Runs -/

/-- The transactions of any number of processes. -/
inductive Action (D : Type*) where
  | append (r : Record D)
  | record (ctx : Context) (action : Text) (details : Details D) (status : Text)
      (user : Option Text) (now : Text)
  | prune (before : Text) (dryRun : Bool)

def step (env : AuditEnv D) (log : AuditLog) : Action D → Option AuditLog
  | .append r => some (log.append env r).2
  | .record ctx action details status user now =>
    some (log.record env ctx action details status user now).2
  | .prune before dryRun => some (log.prune before dryRun).2

lemma step_linked {env : AuditEnv D} {log log' : AuditLog} {a : Action D} (h : log.Linked env)
    (hstep : log.step env a = some log') : log'.Linked env := by
  cases a with
  | append r =>
    rw [step, Option.some.injEq] at hstep
    exact hstep ▸ append_linked h r
  | record ctx action details status user now =>
    rw [step, Option.some.injEq] at hstep
    exact hstep ▸ append_linked h _
  | prune before dryRun =>
    rw [step, Option.some.injEq] at hstep
    exact hstep ▸ prune_linked h before dryRun

lemma run_linked {env : AuditEnv D} {as : List (Action D)} {log : AuditLog}
    (hrun : Run (step env) anyStep .empty as log) : log.Linked env :=
  hrun.invariant (fun h _ hstep => step_linked h hstep) trivial

/-- In a chain the ids count on from the first place. -/
lemma chain_ids {env : AuditEnv D} {place : Place} {entries : List Entry}
    (h : Chain (Accepts env) Entry.place place entries) :
    entries.map Entry.id = (List.range entries.length).map fun i : ℕ => place.1 + 1 + i := by
  induction entries generalizing place with
  | nil => rfl
  | cons e entries ih =>
    obtain ⟨⟨hid, -, -⟩, hrest⟩ := h
    rw [List.map_cons, ih hrest, List.length_cons, List.range_succ_eq_map, List.map_cons,
      List.map_map, hid]
    congr 1
    · simp
    · refine List.map_congr_left fun i _ => ?_
      simp only [Entry.place, hid, Function.comp_apply]
      push_cast
      omega

/-- In a chain every previous hash is the one of the place before. -/
lemma chain_prevHashes {env : AuditEnv D} {place : Place} {entries : List Entry}
    (h : Chain (Accepts env) Entry.place place entries) :
    entries.map Entry.prevHash = (place.2 :: entries.map Entry.hash).dropLast := by
  induction entries generalizing place with
  | nil => rfl
  | cons e entries ih =>
    obtain ⟨⟨-, hprev, -⟩, hrest⟩ := h
    rw [List.map_cons, ih hrest, hprev, List.map_cons]
    rfl

/-- **The chain is intact after every run**: verification finds no problem, the ids count on
from the anchor's, and every previous hash is the hash of the entry before, or the anchor's. -/
theorem chain_intact {env : AuditEnv D} {as : List (Action D)} {log : AuditLog}
    (hrun : Run (step env) anyStep .empty as log) :
    (log.verify env).ok = true ∧
      log.entries.map Entry.id =
        (List.range log.entries.length).map (fun i : ℕ => log.anchor.1 + 1 + i) ∧
      log.entries.map Entry.prevHash =
        (log.anchor.2 :: log.entries.map Entry.hash).dropLast := by
  have hlinked := run_linked hrun
  exact ⟨verify_ok_iff.mpr hlinked, chain_ids hlinked, chain_prevHashes hlinked⟩

/-! ## Two records -/

def firstRecord : Record Unit :=
  { ts := "2026-01-01T00:00:00+00:00".toList, action := "user_deleted".toList,
    status := "success".toList, user := some "root".toList, token := none, ip := none,
    requestId := none, details := .text "\x7b\"username\":\"ops\"\x7d".toList }

/-- The hash of the first entry. -/
def firstHash : Text := "7f80efb17523c79963836d3db03875a9669884cede26c342cf07554b92d4ed40".toList

def firstEntry : Entry :=
  { id := 1, ts := firstRecord.ts, action := firstRecord.action, status := firstRecord.status,
    user := firstRecord.user, token := none, ip := none, requestId := none,
    details := "\x7b\"username\":\"ops\"\x7d".toList, prevHash := genesis, hash := firstHash }

/-- The hash of the second entry. -/
def secondHash : Text := "a3bfd4232f3b7983b023affbae53701b64cdac2226602df7394c1a7570d16f3c".toList

def secondEntry : Entry :=
  { id := 2, ts := "2026-01-02T00:00:00+00:00".toList, action := "auth_login".toList,
    status := "success".toList, user := some "root".toList, token := none,
    ip := some "192.0.2.7".toList, requestId := none, details := "\x7b\x7d".toList,
    prevHash := firstHash, hash := secondHash }

/-- What the hash of an entry is taken of. -/
def payload (e : Entry) : Text :=
  Json.dumps
    [.text e.prevHash, .int e.id, .text e.ts, .text e.action, .text e.status, scalar e.user,
     scalar e.token, scalar e.ip, scalar e.requestId, .text e.details]

/-- The hashes of the two entries; other texts are marked with a letter that no hash begins
with. -/
def sampleSha (t : Text) : Text :=
  if t = payload firstEntry then firstHash
  else if t = payload secondEntry then secondHash
  else 'x' :: t

lemma sampleSha_injective : Function.Injective sampleSha := by
  have hmark : ∀ {h t : Text}, h.head? ≠ some 'x' → h ≠ 'x' :: t := by
    rintro h t hne rfl
    exact hne rfl
  have hfirst : firstHash.head? ≠ some 'x' := by decide
  have hsecond : secondHash.head? ≠ some 'x' := by decide
  have hhashes : firstHash ≠ secondHash := by decide
  intro t u h
  unfold sampleSha at h
  split_ifs at h with ht₁ hu₁ hu₂ ht₂ hu₁ hu₂ hu₁ hu₂
  · exact ht₁.trans hu₁.symm
  · exact absurd h hhashes
  · exact absurd h (hmark hfirst)
  · exact absurd h.symm hhashes
  · exact ht₂.trans hu₂.symm
  · exact absurd h (hmark hsecond)
  · exact absurd h.symm (hmark hfirst)
  · exact absurd h.symm (hmark hsecond)
  · exact (List.cons.inj h).2

/-- Details are empty. -/
def sampleEnv : AuditEnv Unit := { sha256 := sampleSha, canonicalDetails := fun _ => "\x7b\x7d".toList }

/-- A request of a user records a sign-in. -/
def recordSignIn : Action Unit :=
  .record { user := some "root".toList, token := none, ip := some "192.0.2.7".toList, id := none }
    "auth_login".toList (.object ()) "success".toList none "2026-01-02T00:00:00+00:00".toList

/-- Both entries. -/
def recordedLog : AuditLog where
  entries := [firstEntry, secondEntry]
  sorted := by decide
  anchorId := none
  anchorHash := none

/-- The second entry, after everything before it was pruned. -/
def prunedLog : AuditLog where
  entries := [secondEntry]
  sorted := List.pairwise_singleton _ _
  anchorId := some "1".toList
  anchorHash := some firstHash

/-- A run is known by the columns of its last state. -/
lemma run_of_columns {as : List (Action Unit)} {log : AuditLog}
    (h : (exec (step sampleEnv) .empty as).map (fun l => (l.entries, l.anchorId, l.anchorHash)) =
      some (log.entries, log.anchorId, log.anchorHash)) :
    Run (step sampleEnv) anyStep .empty as log := by
  obtain ⟨last, hexec, heq⟩ := Option.map_eq_some_iff.mp h
  simp only [Prod.mk.injEq] at heq
  have hlast : last = log := AuditLog.ext heq.1 heq.2.1 heq.2.2
  exact run_of_exec (hlast ▸ hexec)

lemma recordedLog_run :
    Run (step sampleEnv) anyStep .empty [.append firstRecord, recordSignIn] recordedLog :=
  run_of_columns (by decide +kernel)

lemma prunedLog_run :
    Run (step sampleEnv) anyStep .empty
      [.append firstRecord, .prune "2026-01-02".toList false, recordSignIn] prunedLog :=
  run_of_columns (by decide +kernel)

theorem chain_intact_prunedLog :
    (prunedLog.verify sampleEnv).ok = true ∧
      prunedLog.entries.map Entry.id =
        (List.range prunedLog.entries.length).map (fun i : ℕ => prunedLog.anchor.1 + 1 + i) ∧
      prunedLog.entries.map Entry.prevHash =
        (prunedLog.anchor.2 :: prunedLog.entries.map Entry.hash).dropLast :=
  chain_intact prunedLog_run

end AuditLog

end Habeny.Audit
