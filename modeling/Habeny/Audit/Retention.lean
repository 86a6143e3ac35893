import Habeny.Audit.Log

/-!
# What retention deletes

Entries are pruned by time, and deleted by id: up to the last entry that is older than the
cutoff, all go.  Where the clock was set back between two entries, one that is not older may
stand before one that is, and goes with it.  The rest is a chain from the new anchor in any case.
-/

namespace Habeny.Audit

open Habeny.Lib

namespace AuditLog

variable {D : Type*}

/-- Whether an entry is older than a cutoff. -/
def Expired (before : Text) (e : Entry) : Prop := e.ts < before

instance (before : Text) (e : Entry) : Decidable (Expired before e) :=
  inferInstanceAs (Decidable (e.ts < before))

/-- Every entry that is not older than the cutoff is still there, and the chain is intact if it
was. -/
def RemovesOnlyExpired (env : AuditEnv D) (before : Text) (log log' : AuditLog) : Prop :=
  (∀ e ∈ log.entries, ¬Expired before e → e ∈ log'.entries) ∧
    ((log.verify env).ok = true → (log'.verify env).ok = true)

/-- No entry older than the cutoff comes after one that is not: the log begins with the expired
entries. -/
def ExpiredFirst (log : AuditLog) (before : Text) : Prop :=
  log.entries.Pairwise fun e e' => Expired before e' → Expired before e

section Cut

variable {log : AuditLog} {before : Text}

lemma lastBefore_eq (log : AuditLog) (before : Text) :
    log.lastBefore before = (log.entries.filter fun e => decide (Expired before e)).getLast? := rfl

lemma lastBefore_eq_none (hnone : log.lastBefore before = none) :
    ∀ e ∈ log.entries, ¬Expired before e := by
  rw [lastBefore_eq, List.getLast?_eq_none_iff, List.filter_eq_nil_iff] at hnone
  intro e he
  simpa using hnone e he

/-- The log up to the last expired entry, that entry, and the rest, which is not expired. -/
lemma lastBefore_eq_some {last : Entry} (hlast : log.lastBefore before = some last) :
    ∃ init rest, log.entries = init ++ last :: rest ∧ Expired before last ∧
      ∀ e ∈ rest, ¬Expired before e := by
  rw [lastBefore_eq] at hlast
  have hmem := List.mem_filter.mp (List.mem_of_getLast? hlast)
  obtain ⟨init, rest, hentries⟩ := List.append_of_mem hmem.1
  refine ⟨init, rest, hentries, by simpa using hmem.2, fun e he hexpired => ?_⟩
  -- an expired entry of the rest would come after the last one
  have hlater : last.id < e.id := by
    have hsorted := hentries ▸ log.sorted
    exact (List.pairwise_cons.mp (List.pairwise_append.mp hsorted).2.1).1 e he
  have hearlier : e.id ≤ last.id := by
    have hpairs : (log.entries.filter fun e => decide (Expired before e)).Pairwise
        fun e e' => e.id < e'.id := log.sorted.filter _
    obtain ⟨front, hfront⟩ := List.getLast?_eq_some_iff.mp hlast
    have he' : e ∈ front ++ [last] := by
      rw [← hfront, List.mem_filter, hentries]
      exact ⟨by simp [he], by simpa using hexpired⟩
    rw [hfront] at hpairs
    rcases List.mem_append.mp he' with h | h
    · exact ((List.pairwise_append.mp hpairs).2.2 e h last (List.mem_singleton_self last)).le
    · rw [List.mem_singleton.mp h]
  omega

/-- Where the log begins with the expired entries, all up to the last one are expired. -/
lemma expiredFirst_iff {init rest : List Entry} {last : Entry}
    (hentries : log.entries = init ++ last :: rest) (hlast : Expired before last)
    (hrest : ∀ e ∈ rest, ¬Expired before e) :
    log.ExpiredFirst before ↔ ∀ e ∈ init, Expired before e := by
  rw [ExpiredFirst, hentries]
  constructor
  · intro h e he
    exact (List.pairwise_append.mp h).2.2 e he last List.mem_cons_self hlast
  · intro h
    refine List.pairwise_append.mpr ⟨?_, ?_, fun e he e' _ _ => h e he⟩
    · exact List.pairwise_of_forall_mem_list fun e he _ _ _ => h e he
    · refine List.pairwise_cons.mpr ⟨fun _ _ _ => hlast, ?_⟩
      exact List.pairwise_of_forall_mem_list fun _ _ e he hexp => absurd hexp (hrest e he)

/-- What stays is what comes after the last expired entry. -/
lemma prune_entries {init rest : List Entry} {last : Entry}
    (hlast : log.lastBefore before = some last) (hentries : log.entries = init ++ last :: rest) :
    (log.prune before false).2.entries = rest := by
  simp only [prune, hlast, Bool.false_eq_true, if_false]
  rw [hentries, filter_after (hentries ▸ log.sorted)]

/-- As many entries are counted as are deleted. -/
lemma prune_count (log : AuditLog) (before : Text) :
    (log.prune before false).1 + (log.prune before false).2.entries.length =
      log.entries.length := by
  cases hlast : log.lastBefore before with
  | none => simp [prune, hlast]
  | some last =>
    simp only [prune, hlast, Bool.false_eq_true, if_false]
    rw [← List.countP_eq_length_filter,
      List.length_eq_countP_add_countP (fun e : Entry => decide (e.id ≤ last.id))]
    congr 2
    funext e
    simp

end Cut

section Prune

variable {env : AuditEnv D} {log : AuditLog} {before : Text}

lemma prune_dryRun (log : AuditLog) (before : Text) : (log.prune before true).2 = log := by
  cases hlast : log.lastBefore before <;> simp [prune, hlast]

/-- Where the log begins with the expired entries, exactly they are deleted. -/
lemma prune_of_expiredFirst (h : log.ExpiredFirst before) :
    (log.prune before false).2.entries =
      log.entries.filter fun e => decide ¬Expired before e := by
  cases hlast : log.lastBefore before with
  | none =>
    have hall := lastBefore_eq_none hlast
    simp only [prune, hlast]
    exact (List.filter_eq_self.mpr fun e he => by simpa using hall e he).symm
  | some last =>
    obtain ⟨init, rest, hentries, hexpired, hrest⟩ := lastBefore_eq_some hlast
    have hinit := (expiredFirst_iff hentries hexpired hrest).mp h
    rw [prune_entries hlast hentries, hentries, List.filter_append,
      List.filter_eq_nil_iff.mpr fun e he => by simpa using hinit e he,
      List.filter_cons_of_neg (by simpa using hexpired),
      List.filter_eq_self.mpr fun e he => by simpa using hrest e he, List.nil_append]

/-- **Retention.**  Pruning keeps every entry that is not older than the cutoff, and the chain,
exactly where the log begins with the expired entries; a dry run deletes nothing. -/
theorem removes_only_expired_iff (env : AuditEnv D) (log : AuditLog) (before : Text)
    (dryRun : Bool) :
    RemovesOnlyExpired env before log (log.prune before dryRun).2 ↔
      dryRun = true ∨ log.ExpiredFirst before := by
  have hchain : (log.verify env).ok = true → ((log.prune before dryRun).2.verify env).ok = true :=
    fun h => verify_ok_iff.mpr (prune_linked (verify_ok_iff.mp h) before dryRun)
  cases dryRun with
  | true =>
    have hsame := prune_dryRun log before
    exact iff_of_true ⟨fun e he _ => by rwa [hsame], hchain⟩ (.inl rfl)
  | false =>
    constructor
    · intro h
      refine .inr ?_
      cases hlast : log.lastBefore before with
      | none =>
        have hall := lastBefore_eq_none hlast
        exact List.pairwise_of_forall_mem_list fun _ _ e he hexp => absurd hexp (hall e he)
      | some last =>
        obtain ⟨init, rest, hentries, hexpired, hrest⟩ := lastBefore_eq_some hlast
        refine (expiredFirst_iff hentries hexpired hrest).mpr fun e he => ?_
        by_contra hnot
        have hkept := h.1 e (by rw [hentries]; exact List.mem_append_left _ he) hnot
        rw [prune_entries hlast hentries] at hkept
        -- the ids before and after the last expired entry differ
        have hsorted := List.pairwise_append.mp (hentries ▸ log.sorted)
        have hlt := hsorted.2.2 e he last List.mem_cons_self
        have hgt := (List.pairwise_cons.mp hsorted.2.1).1 e hkept
        omega
    · rintro (h | h)
      · exact absurd h Bool.false_ne_true
      · refine ⟨fun e he hnot => ?_, hchain⟩
        rw [prune_of_expiredFirst h, List.mem_filter]
        exact ⟨he, by simpa using hnot⟩

end Prune

/-- An entry of the third day, and then, by a clock that was set back, one of the first. -/
def clockSetBack : AuditLog :=
  ((AuditLog.empty.append sampleEnv
    { firstRecord with ts := "2026-01-03T00:00:00+00:00".toList }).2.append sampleEnv firstRecord).2

/-- The cutoff is the second day, and the entry of the third day is deleted. -/
theorem unexpired_entry_deleted :
    (clockSetBack.verify sampleEnv).ok = true ∧
      ∃ e ∈ clockSetBack.entries, ¬Expired "2026-01-02T00:00:00+00:00".toList e ∧
        e ∉ (clockSetBack.prune "2026-01-02T00:00:00+00:00".toList false).2.entries := by
  have hlinked : clockSetBack.Linked sampleEnv :=
    have hempty : AuditLog.empty.Linked sampleEnv := trivial
    append_linked (append_linked hempty _) _
  refine ⟨verify_ok_iff.mpr hlinked, _, List.mem_cons_self, by decide +kernel, ?_⟩
  have hempty : (clockSetBack.prune "2026-01-02T00:00:00+00:00".toList false).2.entries = [] := by
    decide +kernel
  rw [hempty]
  exact List.not_mem_nil

end AuditLog

end Habeny.Audit
