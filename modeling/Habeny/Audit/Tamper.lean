import Habeny.Audit.Log

/-!
# Changes that the verification finds

Where the hash function is injective, the hash of an entry determines the entry, its id and the
hash before it, and by that all entries before it.  So an entry that was edited, removed, moved
or put in between is found, unless nothing that the log had comes after it any more: the newest
entries may be removed, and entries that were hashed anew may follow what is left
(`Unnoticed`).  The anchor says where the log begins; nothing says where it ends.
-/

namespace Habeny.Audit

open Habeny.Lib

variable {D : Type*}

lemma scalar_injective : Function.Injective scalar := by
  intro a b h
  cases a <;> cases b <;> simp_all [scalar]

/-- The hash of what two entries say determines what they say. -/
lemma digest_inj {env : AuditEnv D} (hsha : Function.Injective env.sha256) {e e' : Entry}
    (h : e.digest env = e'.digest env) (hhash : e.hash = e'.hash) : e = e' := by
  have hitems := Json.dumps_injective (hsha h)
  simp only [List.cons.injEq, JsonScalar.text.injEq, JsonScalar.int.injEq, and_true] at hitems
  obtain ⟨hprev, hid, hts, haction, hstatus, huser, htoken, hip, hrequest, hdetails⟩ := hitems
  cases e
  cases e'
  simp_all only [scalar_injective.eq_iff]

/-- The links of the log are committed by their hashes. -/
lemma committed {env : AuditEnv D} (hsha : Function.Injective env.sha256) :
    Committed (Accepts env) Entry.place Entry.hash Prod.fst where
  determines := by
    rintro s s' e e' ⟨hid, hprev, hhash⟩ ⟨hid', hprev', hhash'⟩ hsame
    have heq : e = e' := digest_inj hsha (hhash.symm.trans (hsame.trans hhash')) hsame
    subst heq
    refine ⟨rfl, Prod.ext ?_ (hprev.symm.trans hprev')⟩
    omega
  ofPlace := fun h => congrArg Prod.snd h
  rank_next := fun h => h.1

namespace AuditLog

/-- The entries are the first ones of the log, followed by entries that are chained on with
hashes which the log has nowhere: the newest entries were removed, and what follows was hashed
anew. -/
def Unnoticed (env : AuditEnv D) (log : AuditLog) (entries : List Entry) : Prop :=
  ∃ k fresh, entries = log.entries.take k ++ fresh ∧
    Chain (Accepts env) Entry.place (placeAfter Entry.place log.anchor (log.entries.take k)) fresh ∧
    ∀ e ∈ fresh, e.hash ∉ log.entries.map Entry.hash

section Tamper

variable {env : AuditEnv D} {log log' : AuditLog}

lemma anchor_congr (hid : log'.anchorId = log.anchorId) (hhash : log'.anchorHash = log.anchorHash) :
    log'.anchor = log.anchor := by
  rw [anchor, anchor, hid, hhash]

/-- What goes unnoticed verifies, whatever the hash function is. -/
lemma Unnoticed.linked (hlinked : log.Linked env) (hanchor : log'.anchor = log.anchor)
    (h : Unnoticed env log log'.entries) : log'.Linked env := by
  obtain ⟨k, fresh, hentries, hfresh, -⟩ := h
  have htake : Chain (Accepts env) Entry.place log.anchor (log.entries.take k) := by
    have hall : Chain (Accepts env) Entry.place log.anchor
        (log.entries.take k ++ log.entries.drop k) := by
      rw [List.take_append_drop]
      exact hlinked
    exact (chain_append.mp hall).1
  rw [Linked, hanchor, hentries]
  exact chain_append.mpr ⟨htake, hfresh⟩

lemma ok_iff_unnoticed (hsha : Function.Injective env.sha256) (hlinked : log.Linked env)
    (hanchor : log'.anchor = log.anchor) :
    (log'.verify env).ok = true ↔ Unnoticed env log log'.entries := by
  rw [verify_ok_iff]
  constructor
  · intro h
    rw [Linked, hanchor] at h
    exact (committed hsha).diverges hlinked h
  · exact Unnoticed.linked hlinked hanchor

/-- Without new hashes, what goes unnoticed is the removal of the newest entries. -/
lemma unnoticed_iff_prefix {entries : List Entry}
    (hold : ∀ e ∈ entries, e.hash ∈ log.entries.map Entry.hash) :
    Unnoticed env log entries ↔ entries <+: log.entries := by
  constructor
  · rintro ⟨k, fresh, rfl, -, hfresh⟩
    -- a new link would have a new hash
    have hnone : fresh = [] := by
      refine List.eq_nil_iff_forall_not_mem.mpr fun e he => ?_
      exact hfresh e he (hold e (List.mem_append_right _ he))
    rw [hnone, List.append_nil]
    exact List.take_prefix k log.entries
  · intro hprefix
    refine ⟨entries.length, [], ?_, trivial, fun e he => absurd he List.not_mem_nil⟩
    rw [List.append_nil]
    exact List.prefix_iff_eq_take.mp hprefix

/-- **Which changes are found**, with an injective hash function: of all changes of the entries
that leave the anchor alone, exactly those that do not come down to removing the newest entries
and going on with newly hashed ones; and where no entry was hashed anew, exactly those that do
more than remove the newest entries. -/
theorem change_found_iff (hsha : Function.Injective env.sha256) {as : List (Action D)}
    (hrun : Run (step env) anyStep .empty as log) (hid : log'.anchorId = log.anchorId)
    (hhash : log'.anchorHash = log.anchorHash) :
    ((log'.verify env).ok = false ↔ ¬Unnoticed env log log'.entries) ∧
      ((∀ e ∈ log'.entries, e.hash ∈ log.entries.map Entry.hash) →
        ((log'.verify env).ok = false ↔ ¬log'.entries <+: log.entries)) := by
  have hlinked := run_linked hrun
  have hiff := ok_iff_unnoticed hsha hlinked (anchor_congr hid hhash)
  have hfound : (log'.verify env).ok = false ↔ ¬Unnoticed env log log'.entries := by
    rw [← hiff, Bool.not_eq_true]
  refine ⟨hfound, fun hold => ?_⟩
  rw [hfound, unnoticed_iff_prefix hold]

end Tamper

/-! ## The newest entry -/

/-- The log of the two records after its first entry was edited. -/
def editedLog : AuditLog where
  entries := [{ firstEntry with action := "user_created".toList }, secondEntry]
  sorted := by decide
  anchorId := none
  anchorHash := none

/-- The log of the two records without the newest of them. -/
def truncatedLog : AuditLog where
  entries := [firstEntry]
  sorted := List.pairwise_singleton _ _
  anchorId := none
  anchorHash := none

/-- The edited entry has the hash that it had, and is found. -/
theorem change_found_iff_edited :
    Function.Injective sampleEnv.sha256 ∧
      Run (step sampleEnv) anyStep .empty [.append firstRecord, recordSignIn] recordedLog ∧
      ((editedLog.verify sampleEnv).ok = false ↔ ¬Unnoticed sampleEnv recordedLog editedLog.entries) ∧
      ((editedLog.verify sampleEnv).ok = false ↔ ¬editedLog.entries <+: recordedLog.entries) := by
  have hsha : Function.Injective sampleEnv.sha256 := sampleSha_injective
  have hfound := change_found_iff hsha recordedLog_run
    (rfl : editedLog.anchorId = recordedLog.anchorId) rfl
  refine ⟨hsha, recordedLog_run, hfound.1, hfound.2 ?_⟩
  decide

/-- The newest entry is removed, and the chain is still reported intact. -/
theorem newest_removed_unnoticed :
    Function.Injective sampleEnv.sha256 ∧
      Run (step sampleEnv) anyStep .empty [.append firstRecord, recordSignIn] recordedLog ∧
      truncatedLog.anchorId = recordedLog.anchorId ∧
      truncatedLog.anchorHash = recordedLog.anchorHash ∧
      truncatedLog.entries ≠ recordedLog.entries ∧
      (truncatedLog.verify sampleEnv).ok = true :=
  ⟨sampleSha_injective, recordedLog_run, rfl, rfl, by decide, by decide +kernel⟩

end AuditLog

end Habeny.Audit
