import Habeny.Lib.Json
import Habeny.Lib.Transition
import Habeny.Records.Restart

/-!
# The store is a dictionary that survives restarts

Every operation keeps all keys of a store mirrored.  So a flush writes every record that is in
memory, a restart has these records back (`Restarted`), and a record that was deleted has no row
that could bring it back.

`prune` asks the rows which records are in progress.  It removes no record whose status is active
exactly if the row of every such record says so too, or was written late enough
(`StatusesSaved`).
-/

namespace Habeny.Records

open Habeny.Lib

variable {J D H : Type} [Leaf J] {c : Codec J D H}

/-! ## What is claimed -/

section Claim

variable [DecidableEq J]

/-- What a restart makes of a record: its transient keys are gone, an active status is interrupted
and remembered, a detection check that was not done is not checked, and all else is as it was. -/
structure Restarted (r r' : Record J) : Prop where
  transient : ∀ k ∈ transientKeys, r'.lookup k = none
  interrupted : r.isActive = true →
    r'.lookup statusKey = some (.plain (Leaf.text interrupted)) ∧
      r'.lookup statusBeforeKey = r.lookup statusKey
  notChecked : ∀ d, r.pendingDetection = some d →
    ∃ d', r'.lookup detectionKey = some (.object d') ∧
      d'.lookup statusKey = some (Leaf.text "not_checked".toList) ∧
      ∀ k, k ≠ statusKey → k ≠ errorKey → d'.lookup k = d.lookup k
  unchanged : ∀ k, k ∉ transientKeys → (r.isActive = true → k ∉ Record.interruptionKeys) →
    (r.pendingDetection.isSome = true → k ≠ detectionKey) → r'.lookup k = r.lookup k

/-- A store refines a dictionary that survives restarts. -/
structure Refines [DecidableEq H] (c : Codec J D H) (s : Store J D H) : Prop where
  /-- A flush that no record is refused in writes what a restart needs. -/
  flushed : ∀ now s' count, s.flush c now = (s', some count) → s'.memory = s.memory ∧
    ∀ now', ∃ t ids, Store.load c s'.rows s'.prunable now' = some (t, ids) ∧
      (∀ k, Option.Rel Restarted (s.memory.get k) (t.memory.get k)) ∧
      ∀ k, k ∈ ids ↔ ∃ r, s.memory.get k = some r ∧ r.isActive = true
  /-- A record is refused only for its status. -/
  accepted : (∀ k r, s.memory.get k = some r → r.statusColumn.isSome = true) →
    ∀ now, (s.flush c now).2.isSome = true
  /-- A store that was loaded has nothing to write, and is the same when it is loaded again. -/
  again : ∀ now, ∃ t ids, Store.load c s.rows s.prunable now = some (t, ids) ∧
    ∀ now' now'', t.flush c now' = (t, some 0) ∧
      ∃ u, Store.load c t.rows t.prunable now'' = some (u, []) ∧ u.memory.get = t.memory.get
  /-- What was deleted does not come back. -/
  deleted : ∀ k, s.memory.get k = none → ∀ now t ids,
    Store.load c s.rows s.prunable now = some (t, ids) → t.memory.get k = none

/-- The condition under which `prune` removes no active record: the row of each of them has an
active status too, or was written since. -/
def StatusesSaved (s : Store J D H) (before : Text) : Prop :=
  s.prunable = true → ∀ k r row, s.memory.get k = some r → r.isActive = true →
    s.rows.get k = some row → row.expired before = false

/-! ## A restart of a flushed store -/

lemma isActive_strip (r : Record J) : r.strip.isActive = r.isActive :=
  Record.isActive_congr (Record.lookup_strip (by decide))

lemma pendingDetection_strip (r : Record J) : r.strip.pendingDetection = r.pendingDetection :=
  Record.pendingDetection_congr (Record.lookup_strip (by decide))

/-- **Recovering what was written of a record** does what a restart should. -/
lemma restarted_recover (r : Record J) (now : Text) : Restarted r (r.strip.recover now) where
  transient := fun k hk => by
    rw [List.mem_singleton.mp hk, Record.lookup_recover (by decide),
      Record.lookup_interrupt (by decide), Record.strip_eq, Finmap.lookup_erase]
  interrupted := fun hactive => by
    obtain ⟨hstatus, hbefore⟩ :=
      Record.lookup_status_interrupt (r := r.strip) (by rw [isActive_strip, hactive]) now
    rw [Record.lookup_recover (by decide), Record.lookup_recover (by decide), hstatus, hbefore,
      Record.lookup_strip (by decide)]
    exact ⟨rfl, rfl⟩
  notChecked := fun d hd => by
    rw [← pendingDetection_strip] at hd
    rw [Record.recover_of_some hd, Finmap.lookup_insert]
    exact ⟨Record.cutOff d, rfl, Record.lookup_cutOff d⟩
  unchanged := fun k htransient hactive hpending => by
    have hinterrupt : (r.strip.interrupt now).lookup k = r.lookup k := by
      cases h : r.isActive with
      | true => rw [Record.lookup_interrupt (hactive h), Record.lookup_strip htransient]
      | false =>
        rw [Record.interrupt_of_inactive (by rw [isActive_strip, h]),
          Record.lookup_strip htransient]
    cases hd : r.strip.pendingDetection with
    | none => rw [Record.recover_of_none hd, hinterrupt]
    | some d =>
      rw [pendingDetection_strip] at hd
      rw [Record.lookup_recover (hpending (by rw [hd]; rfl)), hinterrupt]

end Claim

/-! ## Pruning -/

namespace Store

variable [DecidableEq J] {s : Store J D H}

lemma mem_expired {before k : Text} :
    k ∈ s.expired before ↔ s.prunable = true ∧ ∃ row, s.rows.get k = some row ∧
      row.expired before = true := by
  unfold expired
  split_ifs with hprunable
  · rw [List.mem_filter, Option.any_eq_true]
    constructor
    · rintro ⟨-, row, hrow, hexpired⟩
      exact ⟨hprunable, row, hrow, hexpired⟩
    · rintro ⟨-, row, hrow, hexpired⟩
      exact ⟨Dict.mem_keys_of_get hrow, row, hrow, hexpired⟩
  · simp [hprunable]

/-- **`prune` keeps the active records exactly if their statuses were saved.** -/
lemma prune_keeps_active_iff (s : Store J D H) (before : Text) :
    (∀ k r, s.memory.get k = some r → r.isActive = true →
      (s.prune before).1.memory.get k = some r) ↔ StatusesSaved s before := by
  constructor
  · intro h hprunable k r row hr hactive hrow
    have hkept := h k r hr hactive
    rw [prune, get_discardAll] at hkept
    split_ifs at hkept with hmem
    · by_contra hexpired
      exact hmem (mem_expired.mpr ⟨hprunable, row, hrow, Bool.not_eq_false _ ▸ hexpired⟩)
  · intro h k r hr hactive
    rw [prune, get_discardAll, if_neg, hr]
    intro hmem
    obtain ⟨hprunable, row, hrow, hexpired⟩ := mem_expired.mp hmem
    exact absurd hexpired (by rw [h hprunable k r row hr hactive hrow]; simp)

end Store

/-! ## Every key stays mirrored -/

namespace Store

variable {s s' : Store J D H}

/-- The invariant. -/
def Sound (c : Codec J D H) (s : Store J D H) : Prop := ∀ k, Mirrored c s k

lemma sound_start (prunable : Bool) : Sound c (start prunable : Store J D H) :=
  fun _ => ⟨rfl, fun _ h => absurd h (by simp [start]), fun _ => rfl⟩

/-- A record in memory may be replaced by any other one. -/
lemma Sound.remember (hs : Sound c s) (key : Text) (value : Record J) :
    Sound c { s with memory := s.memory.set key value } := by
  intro k
  refine ⟨(hs k).saved, (hs k).holds, fun hnone => ?_⟩
  by_cases hk : k = key
  · rw [hk] at hnone
    exact absurd hnone (by simp)
  · rw [Dict.get_set_of_ne hk] at hnone
    exact (hs k).known hnone

lemma Sound.discard (hs : Sound c s) (key : Text) : Sound c (s.discard key) := by
  intro k
  by_cases hk : k = key
  · subst hk
    refine ⟨?_, fun row hrow => ?_, fun _ => Dict.get_erase_self⟩
    · simp [Store.discard, forget]
    · exact absurd (Dict.get_erase_self.symm.trans hrow) (by simp)
  · exact (hs k).of_same
      ⟨Dict.get_erase_of_ne hk, Function.update_of_ne hk .., Dict.get_erase_of_ne hk⟩

lemma Sound.delete (hs : Sound c s) (key : Text) : Sound c (s.delete key) := by
  unfold Store.delete
  split_ifs
  · exact hs.discard key
  · exact hs

/-- What is done to one key after another keeps the keys mirrored. -/
lemma Sound.foldl {f : Store J D H → Text → Store J D H}
    (hf : ∀ {s : Store J D H}, Sound c s → ∀ key, Sound c (f s key)) (hs : Sound c s)
    (keys : List Text) : Sound c (keys.foldl f s) := by
  induction keys generalizing s with
  | nil => exact hs
  | cons key keys ih => exact ih (hf hs key)

/-- What is in memory of a store all of whose keys are written is what the rows have. -/
lemma written_iff (hs : Sound c s) (hwritten : ∀ k, Written c s k) (k : Text) :
    (s.memory.get k = none ∧ s.rows.get k = none) ∨
      ∃ r row, s.memory.get k = some r ∧ s.rows.get k = some row ∧ Holds c row r := by
  cases hr : s.memory.get k with
  | none => exact .inl ⟨rfl, (hs k).known hr⟩
  | some r =>
    obtain ⟨row, hrow, hholds⟩ := hwritten k r hr
    exact .inr ⟨r, row, rfl, hrow, hholds⟩

variable [DecidableEq H]

lemma Sound.set (hs : Sound c s) (key : Text) (value : Record J) (now : Text) :
    Sound c (s.set c key value now).1 := by
  unfold Store.set
  dsimp only
  cases hsave : ({ s with memory := s.memory.set key value } : Store J D H).save c key now with
  | none => exact hs.remember key value
  | some s' => exact (save_mirrored (hs.remember key value) hsave).1

lemma Sound.update (hs : Sound c s) (items : List (Text × Record J)) (now : Text) :
    Sound c (update c now s items).1 := by
  induction items generalizing s with
  | nil => exact hs
  | cons item items ih =>
    have hset := hs.set item.1 item.2 now
    simp only [Store.update]
    rcases hresult : s.set c item.1 item.2 now with ⟨s', _ | _⟩
    · rw [hresult] at hset
      exact hset
    · rw [hresult] at hset
      exact ih hset

/-- The keys of a flushed store are all written. -/
lemma Sound.flushed (hs : Sound c s) {now : Text} {count : ℕ}
    (h : s.flush c now = (s', some count)) :
    s'.memory = s.memory ∧ Sound c s' ∧ ∀ k, Written c s' k := by
  obtain ⟨hmemory, -, hsound, -, hall⟩ :=
    saveEach_spec now s.memory.keys 0 hs
  have hfst : (saveEach c now s s.memory.keys 0).1 = s' := congrArg Prod.fst h
  have hsnd : (saveEach c now s s.memory.keys 0).2 = some count := congrArg Prod.snd h
  rw [hfst] at hmemory hsound hall
  refine ⟨hmemory, hsound, fun k r hr => ?_⟩
  rw [hmemory] at hr
  exact hall (by rw [hsnd]; rfl) k (Dict.mem_keys_of_get hr) r (by rw [hmemory]; exact hr)

variable [DecidableEq J]

lemma Sound.load (hs : Sound c s) (now : Text) :
    ∃ t ids, load c s.rows s.prunable now = some (t, ids) ∧
      (∀ k, t.memory.get k = (s.rows.get k).map fun row => (c.loads row.data).recover now) ∧
      Sound c t ∧ (∀ k, Written c t k) ∧
      ∀ k, k ∈ ids ↔ ∃ row, s.rows.get k = some row ∧ (c.loads row.data).isActive = true :=
  load_spec s.prunable now fun k => (hs k).holds

lemma step_sound {a : StoreAction J} (hs : Sound c s) (hstep : step c s a = some s') :
    Sound c s' := by
  cases a with
  | set key value now =>
    obtain rfl := Option.some.inj hstep
    exact hs.set key value now
  | delete key =>
    obtain rfl := Option.some.inj hstep
    exact hs.delete key
  | pop key =>
    obtain rfl := Option.some.inj hstep
    exact hs.delete key
  | setdefault key default now =>
    obtain rfl := Option.some.inj hstep
    unfold setdefault
    split_ifs
    · exact hs
    · exact hs.set key default now
  | update items now =>
    obtain rfl := Option.some.inj hstep
    exact hs.update items now
  | clear =>
    obtain rfl := Option.some.inj hstep
    exact hs.foldl (fun h key => h.delete key) _
  | mutate key value =>
    obtain rfl := Option.some.inj hstep
    unfold mutate
    split_ifs
    · exact hs.remember key value
    · exact hs
  | save key now =>
    obtain rfl := Option.some.inj hstep
    cases hsave : s.save c key now with
    | none => exact hs
    | some s' => exact (save_mirrored hs hsave).1
  | flush now =>
    obtain rfl := Option.some.inj hstep
    exact (saveEach_spec _ _ _ hs).2.2.1
  | prune before =>
    obtain rfl := Option.some.inj hstep
    exact hs.foldl (fun h key => h.discard key) _
  | restart now =>
    obtain ⟨t, ids, hload, -, ht, -, -⟩ := hs.load now
    simp only [step, hload, Option.map_some, Option.some.injEq] at hstep
    rw [← hstep]
    exact ht

/-! ## A mirrored store refines a dictionary -/

/-- **A mirrored store refines a dictionary that survives restarts.** -/
lemma Sound.refines (hs : Sound c s) : Refines c s where
  flushed := fun now s' count h => by
    obtain ⟨hmemory, hs', hwritten⟩ := hs.flushed h
    refine ⟨hmemory, fun now' => ?_⟩
    obtain ⟨t, ids, hload, ht, -, -, hids⟩ := hs'.load now'
    refine ⟨t, ids, hload, fun k => ?_, fun k => ?_⟩
    · rw [ht k, ← hmemory]
      rcases written_iff hs' hwritten k with ⟨hnone, hrow⟩ | ⟨r, row, hr, hrow, hholds⟩
      · rw [hnone, hrow]
        exact .none
      · rw [hr, hrow, Option.map_some, hholds.loads]
        exact .some (restarted_recover r now')
    · rw [hids k, ← hmemory]
      rcases written_iff hs' hwritten k with ⟨hnone, hrow⟩ | ⟨r, row, hr, hrow, hholds⟩
      · simp [hnone, hrow]
      · simp [hr, hrow, hholds.loads, isActive_strip]
  accepted := fun h now => saveEach_isSome now _ _ h
  again := fun now => by
    obtain ⟨t, ids, hload, hmemory, ht, hwritten, -⟩ := hs.load now
    refine ⟨t, ids, hload, fun now' now'' => ⟨saveEach_of_written ht hwritten, ?_⟩⟩
    obtain ⟨u, ids', hload', hu, -, -, hids⟩ := ht.load now''
    -- a record that was recovered is read back as it is
    have hread : ∀ k row, t.rows.get k = some row → ∃ r, t.memory.get k = some r ∧
        c.loads row.data = r ∧ r.isActive = false ∧ r.recover now'' = r := by
      intro k row hrow
      rcases written_iff ht hwritten k with ⟨-, hnone⟩ | ⟨r, row', hr, hrow', hholds⟩
      · exact absurd (hrow.symm.trans hnone) (by simp)
      · obtain rfl := Option.some.inj (hrow.symm.trans hrow')
        rw [hmemory] at hr
        obtain ⟨old, hold, rfl⟩ := Option.map_eq_some_iff.mp hr
        obtain ⟨first, hfirst⟩ := (hs k).holds old hold
        refine ⟨_, by rw [hmemory, hold]; rfl, ?_, Record.isActive_recover _ _,
          Record.recover_recover _ _ _⟩
        rw [hholds.loads, hfirst.loads, Record.strip_recover]
    have hnone : ids' = [] := by
      refine List.eq_nil_iff_forall_not_mem.mpr fun k hk => ?_
      obtain ⟨row, hrow, hactive⟩ := (hids k).mp hk
      obtain ⟨r, -, hloads, hinactive, -⟩ := hread k row hrow
      rw [hloads, hinactive] at hactive
      exact absurd hactive (by simp)
    refine ⟨u, by rw [hload', hnone], funext fun k => ?_⟩
    rw [hu k]
    cases hrow : t.rows.get k with
    | none =>
      rcases written_iff ht hwritten k with ⟨hr, -⟩ | ⟨r, row', -, hrow', -⟩
      · rw [hr]
        rfl
      · exact absurd (hrow.symm.trans hrow') (by simp)
    | some row =>
      obtain ⟨r, hr, hloads, -, hrecover⟩ := hread k row hrow
      rw [hr, Option.map_some, hloads, hrecover]
  deleted := fun k hk now t ids h => by
    obtain ⟨t', ids', hload, hmemory, -, -, -⟩ := hs.load now
    obtain ⟨rfl, -⟩ := Prod.mk.inj (Option.some.inj (h.symm.trans hload))
    rw [hmemory, (hs k).known hk]
    rfl

instance : Leaf JsonScalar where
  text := .text
  text_injective := fun _ _ h => JsonScalar.text.inj h
  storable
    | .int n => decide (-2 ^ 63 ≤ n ∧ n < 2 ^ 63)
    | _ => true
  storable_text := fun _ => rfl

/-- Records that stand for their own texts and digests. -/
def itself : Codec JsonScalar (Record JsonScalar) (Record JsonScalar) where
  dumps := id
  loads := id
  loads_dumps := fun _ => rfl
  digest := id
  digest_injective := Function.injective_id

/-- A job with a status. -/
def job (status : Text) : Record JsonScalar := Finmap.singleton statusKey (.plain (.text status))

/-- A job is set, runs on and is flushed. -/
def flushedJob : List (StoreAction JsonScalar) :=
  [.set "s1".toList (job "queued".toList) "2026-01-01".toList,
    .mutate "s1".toList (job "running".toList), .flush "2026-01-01".toList]

end Store

end Habeny.Records
