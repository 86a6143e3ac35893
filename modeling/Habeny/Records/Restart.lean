import Habeny.Records.Store

/-!
# What a restart makes of the records

A key of a store is mirrored when the digest is that of its row, and its row holds a record
(`Mirrored`); it is written when its row holds the record in memory (`Written`).  `save` makes a
key written, and `load` makes a store all of whose keys are written, with the records of the rows
recovered.
-/

namespace Habeny.Records

open Habeny.Lib

/-! ## Records -/

namespace Record

variable {J : Type}

lemma strip_eq (r : Record J) : r.strip = r.erase "task".toList := rfl

lemma lookup_strip {r : Record J} {k : Text} (h : k ∉ transientKeys) :
    r.strip.lookup k = r.lookup k :=
  Finmap.lookup_erase_ne fun hk => h (by rw [hk]; exact List.mem_singleton.mpr rfl)

lemma strip_strip (r : Record J) : r.strip.strip = r.strip := by
  refine Finmap.ext_lookup fun k => ?_
  by_cases hk : k ∈ transientKeys
  · rw [List.mem_singleton.mp hk, strip_eq, Finmap.lookup_erase, strip_eq, Finmap.lookup_erase]
  · rw [lookup_strip hk]

lemma strip_eq_self {r : Record J} (h : r.lookup "task".toList = none) : r.strip = r := by
  refine Finmap.ext_lookup fun k => ?_
  by_cases hk : k ∈ transientKeys
  · rw [List.mem_singleton.mp hk, strip_eq, Finmap.lookup_erase, h]
  · rw [lookup_strip hk]

/-- What is written of the status depends on nothing else. -/
lemma statusColumn_congr [Leaf J] {r r' : Record J} (h : r.lookup statusKey = r'.lookup statusKey) :
    r.statusColumn = r'.statusColumn := by
  simp only [statusColumn, h]

lemma statusColumn_strip [Leaf J] (r : Record J) : r.strip.statusColumn = r.statusColumn :=
  statusColumn_congr (lookup_strip (by decide))

/-- A detection check that was cut off is not waited for. -/
lemma lookup_cutOff [Leaf J] (d : Finmap fun _ : Text => J) :
    (cutOff d).lookup statusKey = some (Leaf.text "not_checked".toList) ∧
      ∀ k, k ≠ statusKey → k ≠ errorKey → (cutOff d).lookup k = d.lookup k := by
  refine ⟨?_, fun k hstatus herror => ?_⟩
  · rw [cutOff, Finmap.lookup_insert_of_ne _ (by decide), Finmap.lookup_insert]
  · rw [cutOff, Finmap.lookup_insert_of_ne _ herror, Finmap.lookup_insert_of_ne _ hstatus]

variable [Leaf J] [DecidableEq J]

lemma isActive_congr {r r' : Record J} (h : r.lookup statusKey = r'.lookup statusKey) :
    r.isActive = r'.isActive := by
  simp only [isActive, h]

lemma pendingDetection_congr {r r' : Record J}
    (h : r.lookup detectionKey = r'.lookup detectionKey) :
    r.pendingDetection = r'.pendingDetection := by
  simp only [pendingDetection, h]

/-- An active status is a text. -/
lemma exists_of_isActive {r : Record J} (h : r.isActive = true) :
    ∃ t ∈ activeStatuses, r.lookup statusKey = some (.plain (Leaf.text t)) := by
  unfold isActive at h
  split at h
  · next v hv =>
    obtain ⟨t, ht, heq⟩ := List.any_eq_true.mp h
    exact ⟨t, ht, by rw [hv, of_decide_eq_true heq]⟩
  · exact absurd h (by simp)

lemma isActive_of_text {r : Record J} {t : Text}
    (h : r.lookup statusKey = some (.plain (Leaf.text t))) :
    r.isActive = decide (t ∈ activeStatuses) := by
  simp only [isActive, h]
  rw [Bool.eq_iff_iff, List.any_eq_true, decide_eq_true_eq]
  constructor
  · rintro ⟨t', ht', heq⟩
    rwa [Leaf.text_injective (of_decide_eq_true heq)]
  · exact fun ht => ⟨t, ht, decide_eq_true rfl⟩

/-- The keys that are written when a record is interrupted. -/
def interruptionKeys : List Text := [statusBeforeKey, statusKey, interruptedAtKey]

lemma interrupt_of_inactive {r : Record J} (h : r.isActive = false) (now : Text) :
    r.interrupt now = r := by
  unfold interrupt
  split
  · rw [h]
    rfl
  · rfl

lemma interrupt_of_active {r : Record J} {status : Field J} (h : r.isActive = true)
    (hstatus : r.lookup statusKey = some status) (now : Text) :
    r.interrupt now = ((r.insert statusBeforeKey status).insert statusKey
      (.plain (Leaf.text interrupted))).insert interruptedAtKey (.plain (Leaf.text now)) := by
  simp only [interrupt, hstatus, h, if_true]

lemma lookup_interrupt {r : Record J} {k now : Text} (h : k ∉ interruptionKeys) :
    (r.interrupt now).lookup k = r.lookup k := by
  simp only [interruptionKeys, List.mem_cons, List.not_mem_nil, or_false, not_or] at h
  obtain ⟨hbefore, hstatus, hat⟩ := h
  cases hactive : r.isActive with
  | false => rw [interrupt_of_inactive hactive]
  | true =>
    obtain ⟨t, -, ht⟩ := exists_of_isActive hactive
    rw [interrupt_of_active hactive ht, Finmap.lookup_insert_of_ne _ hat,
      Finmap.lookup_insert_of_ne _ hstatus, Finmap.lookup_insert_of_ne _ hbefore]

lemma lookup_status_interrupt {r : Record J} (h : r.isActive = true) (now : Text) :
    (r.interrupt now).lookup statusKey = some (.plain (Leaf.text interrupted)) ∧
      (r.interrupt now).lookup statusBeforeKey = r.lookup statusKey := by
  obtain ⟨t, -, ht⟩ := exists_of_isActive h
  rw [interrupt_of_active h ht]
  constructor
  · rw [Finmap.lookup_insert_of_ne _ (by decide), Finmap.lookup_insert]
  · rw [Finmap.lookup_insert_of_ne _ (by decide), Finmap.lookup_insert_of_ne _ (by decide),
      Finmap.lookup_insert, ht]

lemma isActive_interrupt (r : Record J) (now : Text) : (r.interrupt now).isActive = false := by
  cases hactive : r.isActive with
  | false => rw [interrupt_of_inactive hactive, hactive]
  | true =>
    rw [isActive_of_text (lookup_status_interrupt hactive now).1]
    decide

lemma statusColumn_interrupt {r : Record J} (h : r.statusColumn.isSome = true) (now : Text) :
    (r.interrupt now).statusColumn.isSome = true := by
  cases hactive : r.isActive with
  | false => rwa [interrupt_of_inactive hactive]
  | true =>
    simp only [statusColumn, (lookup_status_interrupt hactive now).1, Leaf.storable_text, if_true,
      Option.isSome_some]

lemma recover_of_none {r : Record J} (h : r.pendingDetection = none) (now : Text) :
    r.recover now = r.interrupt now := by
  simp only [recover, h]

lemma recover_of_some {r : Record J} {d : Finmap fun _ : Text => J}
    (h : r.pendingDetection = some d) (now : Text) :
    r.recover now = (r.interrupt now).insert detectionKey (.object (cutOff d)) := by
  simp only [recover, h]

lemma lookup_recover {r : Record J} {k now : Text} (h : k ≠ detectionKey) :
    (r.recover now).lookup k = (r.interrupt now).lookup k := by
  cases hpending : r.pendingDetection with
  | none => rw [recover_of_none hpending]
  | some d => rw [recover_of_some hpending, Finmap.lookup_insert_of_ne _ h]

lemma isActive_recover (r : Record J) (now : Text) : (r.recover now).isActive = false := by
  rw [isActive_congr (lookup_recover (by decide)), isActive_interrupt]

lemma statusColumn_recover {r : Record J} (h : r.statusColumn.isSome = true) (now : Text) :
    (r.recover now).statusColumn.isSome = true := by
  rw [statusColumn_congr (lookup_recover (by decide))]
  exact statusColumn_interrupt h now

lemma pendingDetection_recover (r : Record J) (now : Text) :
    (r.recover now).pendingDetection = none := by
  cases hpending : r.pendingDetection with
  | none =>
    rw [recover_of_none hpending, ← hpending]
    exact pendingDetection_congr (lookup_interrupt (by decide))
  | some d =>
    have hlookup : (r.recover now).lookup detectionKey = some (.object (cutOff d)) := by
      rw [recover_of_some hpending, Finmap.lookup_insert]
    simp only [pendingDetection, hlookup, (lookup_cutOff d).1, Option.some.injEq]
    refine if_neg fun hany => ?_
    obtain ⟨t, ht, heq⟩ := List.any_eq_true.mp hany
    have hnot : "not_checked".toList ∉ pendingStatuses := by decide
    rw [Leaf.text_injective (of_decide_eq_true heq)] at hnot
    exact hnot ht

lemma recover_of_settled {r : Record J} (hactive : r.isActive = false)
    (hpending : r.pendingDetection = none) (now : Text) : r.recover now = r := by
  rw [recover_of_none hpending, interrupt_of_inactive hactive]

/-- What is recovered stays as it is. -/
lemma recover_recover (r : Record J) (now now' : Text) :
    (r.recover now).recover now' = r.recover now :=
  recover_of_settled (isActive_recover r now) (pendingDetection_recover r now) now'

lemma strip_recover (r : Record J) (now : Text) :
    (r.strip.recover now).strip = r.strip.recover now := by
  refine strip_eq_self ?_
  rw [lookup_recover (by decide), lookup_interrupt (by decide), strip_eq, Finmap.lookup_erase]

end Record

/-! ## What is in the table -/

variable {J D H : Type}

namespace Store

variable {s s' s'' : Store J D H} {k : Text}

/-- Two stores have the same of a key. -/
structure SameAt (s s' : Store J D H) (k : Text) : Prop where
  memory : s'.memory.get k = s.memory.get k
  saved : s'.saved k = s.saved k
  rows : s'.rows.get k = s.rows.get k

lemma SameAt.refl (s : Store J D H) (k : Text) : SameAt s s k := ⟨rfl, rfl, rfl⟩

lemma SameAt.trans (h : SameAt s s' k) (h' : SameAt s' s'' k) : SameAt s s'' k :=
  ⟨h'.memory.trans h.memory, h'.saved.trans h.saved, h'.rows.trans h.rows⟩

/-- The key and the row stand together. -/
lemma mem_fetched {rows : Dict Text (Row J D)} {k : Text} {row : Row J D} :
    (k, row) ∈ fetched rows ↔ rows.get k = some row := by
  rw [fetched, List.mem_mergeSort, List.mem_filterMap]
  constructor
  · rintro ⟨key, -, heq⟩
    obtain ⟨row', hrow, hpair⟩ := Option.map_eq_some_iff.mp heq
    obtain ⟨rfl, rfl⟩ := Prod.mk.inj hpair
    exact hrow
  · exact fun h => ⟨k, Dict.mem_keys_of_get h, by rw [h]; rfl⟩

lemma fetched_nodup (rows : Dict Text (Row J D)) : ((fetched rows).map Prod.fst).Nodup := by
  have hpairs : (fetched rows).Nodup := by
    refine (List.mergeSort_perm _ _).nodup_iff.mpr ?_
    refine List.Nodup.filterMap (fun a a' p hp hp' => ?_) rows.nodup
    obtain ⟨row, -, rfl⟩ := Option.map_eq_some_iff.mp hp
    obtain ⟨row', -, heq⟩ := Option.map_eq_some_iff.mp hp'
    exact (Prod.mk.inj heq).1.symm
  refine List.Nodup.map_on (fun p hp q hq heq => ?_) hpairs
  have hp' := mem_fetched.mp (show (p.1, p.2) ∈ fetched rows from hp)
  have hq' := mem_fetched.mp (show (q.1, q.2) ∈ fetched rows from hq)
  rw [heq, hq'] at hp'
  exact Prod.ext heq (Option.some.inj hp').symm

/-- What is left of the memory when some records are discarded. -/
lemma get_discardAll (keys : List Text) (s : Store J D H) (k : Text) :
    (keys.foldl discard s).memory.get k = if k ∈ keys then none else s.memory.get k := by
  have hmemory : (keys.foldl discard s).memory = keys.foldl Dict.erase s.memory := by
    induction keys generalizing s with
    | nil => rfl
    | cons key keys ih => exact ih (s.discard key)
  rw [hmemory, Dict.get_eraseAll]
  split_ifs <;> rfl

end Store

variable [Leaf J] {c : Codec J D H}

/-- A row has what is written of a record. -/
def Holds (c : Codec J D H) (row : Row J D) (r : Record J) : Prop :=
  row.data = c.dumps r.strip ∧ r.statusColumn = some row.status

lemma Holds.loads {row : Row J D} {r : Record J} (h : Holds c row r) :
    c.loads row.data = r.strip := by
  rw [h.1, c.loads_dumps]

lemma Holds.strip {row : Row J D} {r : Record J} (h : Holds c row r) : Holds c row r.strip :=
  ⟨by rw [Record.strip_strip]; exact h.1, by rw [Record.statusColumn_strip]; exact h.2⟩

/-- What has the same data has the same status. -/
lemma Holds.of_data {row : Row J D} {r r' : Record J} (h : Holds c row r)
    (hdata : row.data = c.dumps r'.strip) : Holds c row r' := by
  have hstrip : r.strip = r'.strip := c.dumps_injective (h.1.symm.trans hdata)
  refine ⟨hdata, ?_⟩
  rw [← Record.statusColumn_strip, ← hstrip, Record.statusColumn_strip]
  exact h.2

namespace Store

variable {s s' : Store J D H} {k : Text}

/-- The digest of a key is that of its row, which has a record, as the memory has. -/
structure Mirrored (c : Codec J D H) (s : Store J D H) (k : Text) : Prop where
  saved : s.saved k = (s.rows.get k).map fun row => c.digest row.data
  holds : ∀ row, s.rows.get k = some row → ∃ r, Holds c row r
  known : s.memory.get k = none → s.rows.get k = none

/-- The row of a key has the record in memory. -/
def Written (c : Codec J D H) (s : Store J D H) (k : Text) : Prop :=
  ∀ r, s.memory.get k = some r → ∃ row, s.rows.get k = some row ∧ Holds c row r

lemma Mirrored.of_same (h : Mirrored c s k) (hsame : SameAt s s' k) : Mirrored c s' k :=
  ⟨by rw [hsame.saved, hsame.rows, h.saved], by rw [hsame.rows]; exact h.holds,
    by rw [hsame.memory, hsame.rows]; exact h.known⟩

lemma Written.of_same (h : Written c s k) (hsame : SameAt s s' k) : Written c s' k := by
  intro r hr
  rw [hsame.memory] at hr
  rw [hsame.rows]
  exact h r hr

/-! ## Saving -/

variable [DecidableEq H]

/-- What `save` can do. -/
lemma save_cases {key now : Text} (h : s.save c key now = some s') :
    (s.memory.get key = none ∧ s' = s) ∨
      ∃ r, s.memory.get key = some r ∧
        ((s.saved key = some (c.digest (c.dumps r.strip)) ∧ s' = s) ∨
          ∃ status, r.statusColumn = some status ∧
            s' = { s with
              rows := s.rows.set key (written (s.rows.get key) status (c.dumps r.strip) now)
              saved := Function.update s.saved key (some (c.digest (c.dumps r.strip))) }) := by
  unfold save at h
  cases hr : s.memory.get key with
  | none =>
    simp only [hr, Option.some.injEq] at h
    exact .inl ⟨rfl, h.symm⟩
  | some r =>
    simp only [hr] at h
    split_ifs at h with hsaved
    · exact .inr ⟨r, rfl, .inl ⟨hsaved, (Option.some.inj h).symm⟩⟩
    · obtain ⟨status, hstatus, heq⟩ := Option.map_eq_some_iff.mp h
      exact .inr ⟨r, rfl, .inr ⟨status, hstatus, heq.symm⟩⟩

/-- A record whose status can be stored is saved. -/
lemma save_isSome {key : Text} (now : Text)
    (h : ∀ r, s.memory.get key = some r → r.statusColumn.isSome = true) :
    (s.save c key now).isSome = true := by
  unfold save
  cases hr : s.memory.get key with
  | none => rfl
  | some r =>
    dsimp only
    split_ifs
    · rfl
    · rw [Option.isSome_map]
      exact h r hr

lemma save_frame {key now : Text} (h : s.save c key now = some s') :
    s'.memory = s.memory ∧ s'.prunable = s.prunable ∧ ∀ k, k ≠ key → SameAt s s' k := by
  rcases save_cases h with ⟨-, rfl⟩ | ⟨r, -, ⟨-, rfl⟩ | ⟨status, -, rfl⟩⟩
  · exact ⟨rfl, rfl, fun k _ => .refl s' k⟩
  · exact ⟨rfl, rfl, fun k _ => .refl s' k⟩
  · exact ⟨rfl, rfl, fun k hk => ⟨rfl, Function.update_of_ne hk .., Dict.get_set_of_ne hk⟩⟩

/-- **A saved key is written.** -/
lemma save_spec {key now : Text} (hs : Mirrored c s key) (h : s.save c key now = some s') :
    Mirrored c s' key ∧ Written c s' key := by
  rcases save_cases h with ⟨hnone, rfl⟩ | ⟨r, hr, ⟨hsaved, rfl⟩ | ⟨status, hstatus, rfl⟩⟩
  · refine ⟨hs, fun r hr => ?_⟩
    rw [hnone] at hr
    exact absurd hr (by simp)
  · -- the digest tells that the row has the record already
    refine ⟨hs, fun r' hr' => ?_⟩
    obtain rfl := Option.some.inj (hr.symm.trans hr')
    rw [hs.saved] at hsaved
    obtain ⟨row, hrow, hdigest⟩ := Option.map_eq_some_iff.mp hsaved
    obtain ⟨old, hold⟩ := hs.holds row hrow
    exact ⟨row, hrow, hold.of_data (c.digest_injective hdigest)⟩
  · have hholds : Holds c (written (s.rows.get key) status (c.dumps r.strip) now) r :=
      ⟨rfl, hstatus⟩
    refine ⟨⟨?_, fun row hrow => ?_, fun hnone => ?_⟩, fun r' hr' => ?_⟩
    · simp [written]
    · simp only [Dict.get_set_self, Option.some.injEq] at hrow
      exact ⟨r, hrow ▸ hholds⟩
    · exact absurd (hr.symm.trans hnone) (by simp)
    · obtain rfl := Option.some.inj (hr.symm.trans hr')
      exact ⟨_, Dict.get_set_self, hholds⟩

/-- What `save` keeps of every key. -/
lemma save_mirrored {key now : Text} (hs : ∀ k, Mirrored c s k) (h : s.save c key now = some s') :
    (∀ k, Mirrored c s' k) ∧ ∀ k, Written c s k → Written c s' k := by
  obtain ⟨-, -, hsame⟩ := save_frame h
  obtain ⟨hkey, hwritten⟩ := save_spec (hs key) h
  refine ⟨fun k => ?_, fun k hk => ?_⟩
  · by_cases heq : k = key
    · rw [heq]
      exact hkey
    · exact (hs k).of_same (hsame k heq)
  · by_cases heq : k = key
    · rw [heq]
      exact hwritten
    · exact hk.of_same (hsame k heq)

/-- **Saving some keys** keeps the memory, and writes all of them unless one is refused. -/
lemma saveEach_spec (now : Text) (keys : List Text) (count : ℕ) (hs : ∀ k, Mirrored c s k) :
    (saveEach c now s keys count).1.memory = s.memory ∧
      (saveEach c now s keys count).1.prunable = s.prunable ∧
      (∀ k, Mirrored c (saveEach c now s keys count).1 k) ∧
      (∀ k, Written c s k → Written c (saveEach c now s keys count).1 k) ∧
      ((saveEach c now s keys count).2.isSome = true →
        ∀ k ∈ keys, Written c (saveEach c now s keys count).1 k) := by
  induction keys generalizing s count with
  | nil => exact ⟨rfl, rfl, hs, fun _ h => h, fun _ k hk => absurd hk List.not_mem_nil⟩
  | cons key keys ih =>
    simp only [saveEach]
    cases hsave : s.save c key now with
    | none => exact ⟨rfl, rfl, hs, fun _ h => h, fun h => absurd h (by simp)⟩
    | some s' =>
      dsimp only
      obtain ⟨hmemory, hprunable, -⟩ := save_frame hsave
      obtain ⟨hs', hkeep⟩ := save_mirrored hs hsave
      obtain ⟨hm, hp, hmirrored, hwritten, hall⟩ := ih (s := s')
        (count + if s'.saved key = s.saved key then 0 else 1) hs'
      refine ⟨hm.trans hmemory, hp.trans hprunable, hmirrored, fun k hk => hwritten k (hkeep k hk),
        fun hsome k hk => ?_⟩
      rcases List.mem_cons.mp hk with rfl | hk
      · exact hwritten k (save_spec (hs k) hsave).2
      · exact hall hsome k hk

/-- Records whose statuses can be stored are saved. -/
lemma saveEach_isSome (now : Text) (keys : List Text) (count : ℕ)
    (h : ∀ k r, s.memory.get k = some r → r.statusColumn.isSome = true) :
    (saveEach c now s keys count).2.isSome = true := by
  induction keys generalizing s count with
  | nil => rfl
  | cons key keys ih =>
    obtain ⟨s', hsave⟩ := Option.isSome_iff_exists.mp (save_isSome (c := c) now (h key))
    simp only [saveEach, hsave]
    refine ih _ fun k r hr => ?_
    rw [(save_frame hsave).1] at hr
    exact h k r hr

/-- What is written already is left alone. -/
lemma save_of_written {key now : Text} (hs : Mirrored c s key) (h : Written c s key) :
    s.save c key now = some s := by
  unfold save
  cases hr : s.memory.get key with
  | none => rfl
  | some r =>
    obtain ⟨row, hrow, hholds⟩ := h r hr
    dsimp only
    refine if_pos ?_
    rw [hs.saved, hrow, Option.map_some, hholds.1]

lemma saveEach_of_written {now : Text} {keys : List Text} {count : ℕ}
    (hs : ∀ k, Mirrored c s k) (h : ∀ k, Written c s k) :
    saveEach c now s keys count = (s, some count) := by
  induction keys generalizing count with
  | nil => rfl
  | cons key keys ih =>
    simp only [saveEach, save_of_written (hs key) (h key), if_true, Nat.add_zero]
    exact ih

/-! ## Loading -/

variable [DecidableEq J]

/-- What is taken over at a key of the table. -/
structure TakenOver (c : Codec J D H) (now : Text) (ids : List Text) (s : Store J D H) (k : Text)
    (row : Row J D) : Prop where
  memory : s.memory.get k = some ((c.loads row.data).recover now)
  mirrored : Mirrored c s k
  written : Written c s k ∨ k ∈ ids

/-- A row that holds a record is taken over, and either it has what is in memory by then, or the
key is among the interrupted ones. -/
lemma takeOver_spec (now : Text) {key : Text} {row : Row J D} (ids : List Text)
    (hrow : s.rows.get key = some row) (hholds : ∃ r, Holds c row r) :
    ∃ s₁, takeOver c now s key row = some s₁ ∧
      s₁.prunable = s.prunable ∧ (∀ k, k ≠ key → SameAt s s₁ k) ∧
      TakenOver c now (if (c.loads row.data).isActive then ids ++ [key] else ids) s₁ key row := by
  obtain ⟨r, hr⟩ := hholds
  set value := c.loads row.data with hvalue
  set s₀ : Store J D H := { s with
    memory := s.memory.set key (value.recover now)
    saved := Function.update s.saved key (some (c.digest row.data)) } with hs₀
  have hmemory : s₀.memory.get key = some (value.recover now) := Dict.get_set_self
  have hsame : ∀ k, k ≠ key → SameAt s s₀ k :=
    fun k hk => ⟨Dict.get_set_of_ne hk, Function.update_of_ne hk .., rfl⟩
  have hmirrored : Mirrored c s₀ key := by
    refine ⟨?_, fun row' hrow' => ?_, fun hnone => absurd (hmemory.symm.trans hnone) (by simp)⟩
    · rw [show s₀.rows.get key = some row from hrow]
      exact Function.update_self ..
    · obtain rfl := Option.some.inj (hrow.symm.trans hrow')
      exact ⟨r, hr⟩
  by_cases hpending : value.pendingDetection.isSome = true
  · -- the detection check is saved at once
    have hcolumn : ∀ r', s₀.memory.get key = some r' → r'.statusColumn.isSome = true := by
      intro r' hr'
      obtain rfl := Option.some.inj (hmemory.symm.trans hr')
      refine Record.statusColumn_recover ?_ now
      rw [hvalue, hr.loads, Record.statusColumn_strip, hr.2]
      rfl
    obtain ⟨s₁, hsave⟩ := Option.isSome_iff_exists.mp (save_isSome (c := c) now hcolumn)
    obtain ⟨hm, hp, hframe⟩ := save_frame hsave
    obtain ⟨hkey, hwritten⟩ := save_spec hmirrored hsave
    exact ⟨s₁, (if_pos hpending).trans hsave, hp, fun k hk => (hsame k hk).trans (hframe k hk),
      ⟨by rw [hm]; exact hmemory, hkey, .inl hwritten⟩⟩
  · refine ⟨s₀, if_neg hpending, rfl, hsame, ⟨hmemory, hmirrored, ?_⟩⟩
    by_cases hactive : value.isActive = true
    · rw [if_pos hactive]
      exact .inr (List.mem_append_right _ (List.mem_singleton.mpr rfl))
    · -- the record is as it was written
      refine .inl fun r' hr' => ?_
      obtain rfl := Option.some.inj (hmemory.symm.trans hr')
      have hnone : value.pendingDetection = none := by simpa using hpending
      rw [Record.recover_of_settled (Bool.eq_false_iff.mpr hactive) hnone, hvalue, hr.loads]
      exact ⟨row, hrow, hr.strip⟩

/-- The rows that are read are taken over, and the other keys are left alone. -/
lemma loadRows_spec (now : Text) (ids : List Text) {fetchedRows : List (Text × Row J D)}
    (hnodup : (fetchedRows.map Prod.fst).Nodup)
    (hrows : ∀ p ∈ fetchedRows, s.rows.get p.1 = some p.2 ∧ ∃ r, Holds c p.2 r) :
    ∃ t, loadRows c now s ids fetchedRows = some (t, ids ++
        (fetchedRows.filter fun p => (c.loads p.2.data).isActive).map Prod.fst) ∧
      t.prunable = s.prunable ∧ (∀ k, k ∉ fetchedRows.map Prod.fst → SameAt s t k) ∧
      ∀ p ∈ fetchedRows, TakenOver c now (ids ++
        (fetchedRows.filter fun p => (c.loads p.2.data).isActive).map Prod.fst) t p.1 p.2 := by
  induction fetchedRows generalizing s ids with
  | nil => exact ⟨s, by simp [loadRows], rfl, fun k _ => .refl s k, by simp⟩
  | cons p rest ih =>
    obtain ⟨hrow, hholds⟩ := hrows p List.mem_cons_self
    rw [List.map_cons, List.nodup_cons] at hnodup
    obtain ⟨hnot, hrest⟩ := hnodup
    obtain ⟨s₁, hload, hp₁, hsame₁, htaken⟩ :=
      takeOver_spec (c := c) now ids hrow hholds
    have hrows₁ : ∀ q ∈ rest, s₁.rows.get q.1 = some q.2 ∧ ∃ r, Holds c q.2 r := by
      intro q hq
      have hne : q.1 ≠ p.1 := fun h => hnot (h ▸ List.mem_map_of_mem hq)
      rw [(hsame₁ q.1 hne).rows]
      exact hrows q (List.mem_cons_of_mem p hq)
    obtain ⟨t, hloadRest, hp, hsame, hall⟩ := ih
      (if (c.loads p.2.data).isActive then ids ++ [p.1] else ids) hrest hrows₁
    have hids : (if (c.loads p.2.data).isActive then ids ++ [p.1] else ids) ++
        (rest.filter fun p => (c.loads p.2.data).isActive).map Prod.fst
        = ids ++ ((p :: rest).filter fun p => (c.loads p.2.data).isActive).map Prod.fst := by
      cases hactive : (c.loads p.2.data).isActive <;> simp [hactive]
    rw [hids] at hloadRest hall
    refine ⟨t, ?_, hp.trans hp₁, fun k hk => ?_, fun q hq => ?_⟩
    · rw [loadRows, hload]
      exact hloadRest
    · rw [List.map_cons, List.mem_cons, not_or] at hk
      exact (hsame₁ k hk.1).trans (hsame k hk.2)
    · rcases List.mem_cons.mp hq with rfl | hq
      · have hq := hsame q.1 hnot
        refine ⟨by rw [hq.memory]; exact htaken.memory, htaken.mirrored.of_same hq, ?_⟩
        rcases htaken.written with hw | hid
        · exact .inl (hw.of_same hq)
        · refine .inr ?_
          rw [← hids]
          exact List.mem_append_left _ hid
      · exact hall q hq

/-- **Loading** succeeds; it recovers every record of the table, and the table has what is in
memory afterwards. -/
theorem load_spec {rows : Dict Text (Row J D)} (prunable : Bool) (now : Text)
    (hrows : ∀ k row, rows.get k = some row → ∃ r, Holds c row r) :
    ∃ t ids, load c rows prunable now = some (t, ids) ∧
      (∀ k, t.memory.get k = (rows.get k).map fun row => (c.loads row.data).recover now) ∧
      (∀ k, Mirrored c t k) ∧ (∀ k, Written c t k) ∧
      ∀ k, k ∈ ids ↔ ∃ row, rows.get k = some row ∧ (c.loads row.data).isActive = true := by
  obtain ⟨t, hload, -, hsame, htaken⟩ := loadRows_spec (c := c) now []
    (s := { memory := .empty, saved := fun _ => none, rows, prunable }) (fetched_nodup rows)
    fun p hp => ⟨mem_fetched.mp hp, hrows p.1 p.2 (mem_fetched.mp hp)⟩
  rw [List.nil_append] at hload htaken
  set ids := ((fetched rows).filter fun p => (c.loads p.2.data).isActive).map Prod.fst
  have hcases : ∀ k, (∃ row, rows.get k = some row ∧ TakenOver c now ids t k row) ∨
      (rows.get k = none ∧ t.memory.get k = none ∧ t.saved k = none ∧ t.rows.get k = none) := by
    intro k
    cases hrow : rows.get k with
    | some row => exact .inl ⟨row, rfl, htaken (k, row) (mem_fetched.mpr hrow)⟩
    | none =>
      have hk : k ∉ (fetched rows).map Prod.fst := by
        intro hmem
        obtain ⟨p, hp, rfl⟩ := List.mem_map.mp hmem
        rw [mem_fetched.mp hp] at hrow
        exact absurd hrow (by simp)
      have h := hsame k hk
      exact .inr ⟨rfl, h.memory, h.saved, by rw [h.rows]; exact hrow⟩
  have hmemory : ∀ k, t.memory.get k
      = (rows.get k).map fun row => (c.loads row.data).recover now := by
    intro k
    rcases hcases k with ⟨row, hrow, h⟩ | ⟨hrow, h, -, -⟩
    · rw [hrow, h.memory, Option.map_some]
    · rw [hrow, h, Option.map_none]
  have hmirrored : ∀ k, Mirrored c t k := by
    intro k
    rcases hcases k with ⟨row, -, h⟩ | ⟨-, hm, hs, hr⟩
    · exact h.mirrored
    · exact ⟨by rw [hs, hr]; rfl, by rw [hr]; exact fun _ h => absurd h (by simp), fun _ => hr⟩
  -- the statuses of the records can be stored
  have hcolumn : ∀ k r, t.memory.get k = some r → r.statusColumn.isSome = true := by
    intro k r hr
    rw [hmemory] at hr
    obtain ⟨row, hrow, rfl⟩ := Option.map_eq_some_iff.mp hr
    obtain ⟨old, hold⟩ := hrows k row hrow
    refine Record.statusColumn_recover ?_ now
    rw [hold.loads, Record.statusColumn_strip, hold.2]
    rfl
  obtain ⟨hm, -, hmirrored', hkeep, hall⟩ := saveEach_spec now ids 0
    hmirrored
  have hsome := saveEach_isSome (c := c) now ids 0 hcolumn
  obtain ⟨count, hcount⟩ := Option.isSome_iff_exists.mp hsome
  refine ⟨(saveEach c now t ids 0).1, ids, ?_, fun k => by rw [hm]; exact hmemory k, hmirrored',
    fun k => ?_, fun k => ?_⟩
  · rw [load, hload, Option.bind_some]
    dsimp only
    rw [← Prod.eta (saveEach c now t ids 0), hcount]
  · rcases hcases k with ⟨row, -, h⟩ | ⟨-, hnone, -, -⟩
    · rcases h.written with hw | hid
      · exact hkeep k hw
      · exact hall hsome k hid
    · intro r hr
      rw [hm, hnone] at hr
      exact absurd hr (by simp)
  · constructor
    · intro hk
      obtain ⟨p, hp, rfl⟩ := List.mem_map.mp hk
      rw [List.mem_filter] at hp
      exact ⟨p.2, mem_fetched.mp hp.1, hp.2⟩
    · rintro ⟨row, hrow, hactive⟩
      exact List.mem_map.mpr ⟨(k, row), List.mem_filter.mpr ⟨mem_fetched.mpr hrow, hactive⟩, rfl⟩

end Store

end Habeny.Records
