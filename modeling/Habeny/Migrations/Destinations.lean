import Habeny.Migrations.SyslogTargets

/-!
# Every syslog destination is kept

A config goes through the managers as one change of each row, which the linked profile takes if
it has no destination yet, and one new row if no profile takes it (`addConfig_rows`).  So a
manager that was there has the destination of the first config it takes, and the destinations of
all managers are those of the configs (`destinations_up`).  The way back makes a config of each of
them again, whose destination is the same.
-/

namespace Habeny.Migrations

open Habeny.Lib Habeny.Tenancy

variable {env : SyslogEnv} {now : Text}

/-! ## One config -/

/-- Whether a config is linked to a manager that takes it. -/
def matching (m : Manager SyslogColumns) (c : SyslogConfig) : Bool :=
  present c.managerProfileId && decide (m.managerId = c.managerProfileId) && takes c m

/-- A manager after a config. -/
def assign (env : SyslogEnv) (now : Text) (c : SyslogConfig) (m : Manager SyslogColumns) :
    Manager SyslogColumns :=
  if matching m c then m.withSyslog env now c else m

lemma mem_keys_id {S : Type} {m : Manager S} {t : Text} :
    UniqueKey.id t ∈ m.keys ↔ m.managerId = some t := by
  rw [Manager.keys, List.mem_cons, Option.mem_toList, Option.map_eq_some_iff]
  constructor
  · rintro (h | ⟨u, hu, h⟩)
    · cases h
    · cases h
      exact hu
  · exact fun h => .inr ⟨t, h, rfl⟩

lemma mem_keys_name {S : Type} {m : Manager S} {t : Text} :
    UniqueKey.name t ∈ m.keys ↔ m.name = t := by
  rw [Manager.keys, List.mem_cons, Option.mem_toList, Option.map_eq_some_iff]
  constructor
  · rintro (h | ⟨u, -, h⟩)
    · cases h
      rfl
    · cases h
  · exact fun h => .inl (by rw [h])

/-- The ids are unique, so the linked profile is the only one with its id. -/
lemma linked_eq_some {managers : Managers SyslogColumns} {c : SyslogConfig}
    {m : Manager SyslogColumns} :
    linked managers c = some m ↔
      present c.managerProfileId = true ∧ m ∈ managers.rows ∧ m.managerId = c.managerProfileId := by
  rw [linked]
  split_ifs with hpresent
  · refine ⟨fun h => ?_, fun ⟨_, hm, hid⟩ => ?_⟩
    · exact ⟨hpresent, List.mem_of_find?_eq_some h, by simpa using List.find?_some h⟩
    · rcases hfound : managers.rows.find? fun m => decide (m.managerId = c.managerProfileId) with
        _ | m'
      · rw [List.find?_eq_none] at hfound
        exact absurd (by simpa using hid) (hfound m hm)
      · obtain ⟨t, ht⟩ : ∃ t, c.managerProfileId = some t := by
          cases hprofile : c.managerProfileId with
          | none => simp [present, hprofile] at hpresent
          | some t => exact ⟨t, rfl⟩
        have hid' : m'.managerId = c.managerProfileId := by simpa using List.find?_some hfound
        rw [hfound, managers.row_unique (List.mem_of_find?_eq_some hfound) hm
          (mem_keys_id.mpr (hid'.trans ht)) (mem_keys_id.mpr (hid.trans ht))]
  · exact ⟨fun h => absurd h (by simp), fun h => absurd h.1 hpresent⟩

lemma any_linked (managers : Managers SyslogColumns) (c : SyslogConfig) :
    (linked managers c).any (takes c) = managers.rows.any fun m => matching m c := by
  rw [Bool.eq_iff_iff, Option.any_eq_true, List.any_eq_true]
  simp only [linked_eq_some, matching, Bool.and_eq_true, decide_eq_true_eq]
  constructor
  · rintro ⟨m, ⟨hpresent, hm, hid⟩, htakes⟩
    exact ⟨m, hm, ⟨hpresent, hid⟩, htakes⟩
  · rintro ⟨m, hm, ⟨hpresent, hid⟩, htakes⟩
    exact ⟨m, ⟨hpresent, hm, hid⟩, htakes⟩

/-- Where a profile takes the config, the update changes that one. -/
lemma map_setSyslog {managers : Managers SyslogColumns} {c : SyslogConfig}
    (hany : (linked managers c).any (takes c) = true) :
    managers.rows.map (setSyslog env now c) = managers.rows.map (assign env now c) := by
  obtain ⟨m, hlinked, htakes⟩ := (Option.any_eq_true _ _).mp hany
  obtain ⟨hpresent, -, -⟩ := linked_eq_some.mp hlinked
  refine List.map_congr_left fun m' hm' => ?_
  rw [setSyslog, assign, matching, hpresent, Bool.true_and]
  by_cases hid : m'.managerId = c.managerProfileId
  · have hsame := hlinked.symm.trans (linked_eq_some.mpr ⟨hpresent, hm', hid⟩)
    rw [if_pos hid, if_pos]
    rw [Option.some.inj hsame] at htakes
    rw [htakes, Bool.and_true, decide_eq_true hid]
  · rw [if_neg hid, decide_eq_false hid, Bool.false_and]
    rfl

lemma map_assign_of_not_any {rows : List (Manager SyslogColumns)} {c : SyslogConfig}
    (hany : (rows.any fun m => matching m c) = false) : rows.map (assign env now c) = rows := by
  rw [List.any_eq_false] at hany
  conv_rhs => rw [← List.map_id rows]
  refine List.map_congr_left fun m hm => ?_
  rw [assign, if_neg (hany m hm), id]

/-- One config changes the profile that takes it, or is added as a row of its own. -/
lemma addConfig_rows {s s' : Managers SyslogColumns × ℕ} {c : SyslogConfig}
    (h : addConfig env now s c = some s') :
    s'.1.rows = s.1.rows.map (assign env now c) ++
      if s.1.rows.any (fun m => matching m c) then []
      else [ownProfile env now (env.uuid s.2) (uniqueName (s.1.rows.map Manager.name) c.name) c] := by
  rw [addConfig, any_linked] at h
  split_ifs at h ⊢ with hany
  · obtain rfl := Option.some.inj h
    rw [List.append_nil, Table.map_rows, map_setSyslog ((any_linked _ _).trans hany)]
  · obtain ⟨managers, hinsert, rfl⟩ := Option.map_eq_some_iff.mp h
    rw [Table.insert_rows hinsert, map_assign_of_not_any (by simpa using hany)]

/-- No id that is still to be made is taken. -/
def Fresh (env : SyslogEnv) (n : ℕ) (taken : List UniqueKey) : Prop :=
  ∀ k, n ≤ k → UniqueKey.id (env.uuid k) ∉ taken

/-- Inserting a row succeeds: its name is free and its id is new. -/
lemma addConfig_fresh (now : Text) {s : Managers SyslogColumns × ℕ} (c : SyslogConfig)
    (hfresh : Fresh env s.2 s.1.taken) :
    ∃ s', addConfig env now s c = some s' ∧ Fresh env s'.2 s'.1.taken := by
  rw [addConfig]
  split_ifs with hany
  · exact ⟨_, rfl, by rwa [Table.map_taken]⟩
  · let row := ownProfile env now (env.uuid s.2) (uniqueName (s.1.rows.map Manager.name) c.name) c
    have hkeys : row.keys = [.name row.name, .id (env.uuid s.2)] := rfl
    have hname : UniqueKey.name row.name ∉ s.1.taken := by
      intro htaken
      obtain ⟨m, hm, hk⟩ := Table.mem_taken.mp htaken
      exact uniqueName_free (s.1.rows.map Manager.name) c.name
        (List.mem_map.mpr ⟨m, hm, mem_keys_name.mp hk⟩)
    obtain ⟨managers, hinsert⟩ := Table.insert_eq_some (t := s.1) (r := row) (by simp [hkeys])
      (by simp [hkeys, hname, hfresh s.2 le_rfl])
    refine ⟨(managers, s.2 + 1), by rw [hinsert]; rfl, fun k hk htaken => ?_⟩
    rw [Table.insert_taken hinsert, List.mem_append, hkeys] at htaken
    rcases htaken with htaken | htaken
    · exact hfresh k (Nat.le_of_succ_le hk) htaken
    · have hid : env.uuid k = env.uuid s.2 := by simpa using htaken
      have := env.uuid_injective hid
      omega

/-! ## All configs -/

lemma matching_eq_false {m : Manager SyslogColumns} (h : m.syslog.port ≠ none) (c : SyslogConfig) :
    matching m c = false := by
  rw [matching, takes, decide_eq_false h, Bool.false_and, Bool.and_false]

lemma assign_of_port {m : Manager SyslogColumns} (h : m.syslog.port ≠ none) (c : SyslogConfig) :
    assign env now c m = m := by
  rw [assign, matching_eq_false h, if_neg Bool.false_ne_true]

lemma port_of_destination {m : Manager SyslogColumns} {d : Destination}
    (h : m.destination = some d) : m.syslog.port ≠ none := by
  intro hnone
  rw [Manager.destination, hnone] at h
  cases hip : m.siemIp <;> simp [hip] at h

lemma destination_withSyslog (m : Manager SyslogColumns) (c : SyslogConfig) :
    (m.withSyslog env now c).destination = some (c.destination env) := rfl

lemma destination_ownProfile (id name : Text) (c : SyslogConfig) :
    (ownProfile env now id name c).destination = some (c.destination env) := rfl

/-- A manager after all configs: it has the destination of the first one that it takes. -/
def settled (env : SyslogEnv) (now : Text) (cs : List SyslogConfig) (m : Manager SyslogColumns) :
    Manager SyslogColumns :=
  match cs.find? (matching m) with
  | some c => m.withSyslog env now c
  | none => m

lemma settled_of_port {m : Manager SyslogColumns} (h : m.syslog.port ≠ none)
    (cs : List SyslogConfig) : settled env now cs m = m := by
  have hnone : cs.find? (matching m) = none :=
    List.find?_eq_none.mpr fun c _ => by simp [matching_eq_false h]
  rw [settled, hnone]

lemma settled_cons (c : SyslogConfig) (cs : List SyslogConfig) (m : Manager SyslogColumns) :
    settled env now cs (assign env now c m) = settled env now (c :: cs) m := by
  by_cases hmatch : matching m c = true
  · rw [assign, if_pos hmatch, settled_of_port (by simp [Manager.withSyslog]), settled,
      List.find?_cons_of_pos hmatch]
  · rw [assign, if_neg hmatch, settled, settled, List.find?_cons_of_neg hmatch]

/-- The managers that were there are settled, and every other row is that of a config. -/
lemma foldlM_addConfig_rows {cs : List SyslogConfig} {s s' : Managers SyslogColumns × ℕ}
    (h : cs.foldlM (addConfig env now) s = some s') :
    ∃ own, s'.1.rows = s.1.rows.map (settled env now cs) ++ own ∧
      ∀ m ∈ own, ∃ c ∈ cs, ∃ id name, m = ownProfile env now id name c := by
  induction cs generalizing s with
  | nil =>
    obtain rfl := Option.some.inj h
    have hnil : settled env now [] = id := rfl
    exact ⟨[], by rw [List.append_nil, hnil, List.map_id], fun m hm => absurd hm List.not_mem_nil⟩
  | cons c cs ih =>
    rw [List.foldlM_cons, Option.bind_eq_bind, Option.bind_eq_some_iff] at h
    obtain ⟨s₁, hadd, hrest⟩ := h
    obtain ⟨own, hrows, hown⟩ := ih hrest
    rw [addConfig_rows hadd, List.map_append, List.map_map] at hrows
    have hfirst : settled env now cs ∘ assign env now c = settled env now (c :: cs) :=
      funext fun m => settled_cons c cs m
    rw [hfirst, List.append_assoc] at hrows
    refine ⟨_, hrows, fun m hm => ?_⟩
    rcases List.mem_append.mp hm with hm | hm
    · split_ifs at hm with hany
      · exact absurd hm List.not_mem_nil
      · -- the new row has a port, so no later config changes it
        rw [List.map_singleton, List.mem_singleton, settled_of_port (by simp [ownProfile])] at hm
        exact ⟨c, List.mem_cons_self, _, _, hm⟩
    · obtain ⟨c', hc', id, name, heq⟩ := hown m hm
      exact ⟨c', List.mem_cons_of_mem _ hc', id, name, heq⟩

/-- A row with a destination stays. -/
lemma foldlM_addConfig_mem {cs : List SyslogConfig} {s s' : Managers SyslogColumns × ℕ}
    (h : cs.foldlM (addConfig env now) s = some s') {m : Manager SyslogColumns} {d : Destination}
    (hm : m ∈ s.1.rows) (hd : m.destination = some d) : m ∈ s'.1.rows := by
  obtain ⟨own, hrows, -⟩ := foldlM_addConfig_rows h
  rw [hrows]
  refine List.mem_append_left _ (List.mem_map.mpr ⟨m, hm, ?_⟩)
  exact settled_of_port (port_of_destination hd) cs

/-- Every config's destination is that of a manager. -/
lemma foldlM_addConfig_destination {cs : List SyslogConfig} {s s' : Managers SyslogColumns × ℕ}
    (h : cs.foldlM (addConfig env now) s = some s') {c : SyslogConfig} (hc : c ∈ cs) :
    ∃ m ∈ s'.1.rows, m.destination = some (c.destination env) := by
  induction cs generalizing s with
  | nil => exact absurd hc List.not_mem_nil
  | cons c' cs ih =>
    rw [List.foldlM_cons, Option.bind_eq_bind, Option.bind_eq_some_iff] at h
    obtain ⟨s₁, hadd, hrest⟩ := h
    rcases List.mem_cons.mp hc with rfl | hc
    · have hsome : ∃ m ∈ s₁.1.rows, m.destination = some (c.destination env) := by
        rw [addConfig_rows hadd]
        by_cases hany : s.1.rows.any (fun m => matching m c) = true
        · obtain ⟨m, hm, hmatch⟩ := List.any_eq_true.mp hany
          refine ⟨assign env now c m, List.mem_append_left _ (List.mem_map_of_mem hm), ?_⟩
          rw [assign, if_pos hmatch, destination_withSyslog]
        · rw [if_neg hany]
          exact ⟨_, List.mem_append_right _ (List.mem_singleton_self _),
            destination_ownProfile _ _ c⟩
      obtain ⟨m, hm, hd⟩ := hsome
      exact ⟨m, foldlM_addConfig_mem hrest hm hd, hd⟩
    · exact ih hrest hc

lemma foldlM_addConfig_fresh (now : Text) (cs : List SyslogConfig) {s : Managers SyslogColumns × ℕ}
    (hfresh : Fresh env s.2 s.1.taken) :
    ∃ s', cs.foldlM (addConfig env now) s = some s' ∧ Fresh env s'.2 s'.1.taken := by
  induction cs generalizing s with
  | nil => exact ⟨s, rfl, hfresh⟩
  | cons c cs ih =>
    obtain ⟨s₁, hadd, hfresh₁⟩ := addConfig_fresh now c hfresh
    obtain ⟨s', hrest, hfresh'⟩ := ih hfresh₁
    refine ⟨s', ?_, hfresh'⟩
    rw [List.foldlM_cons, hadd]
    exact hrest

/-! ## Up -/

section Up

variable {n n' : ℕ} {db : Version8} {db' : Version9}

lemma mem_ordered {c : SyslogConfig} : c ∈ db.ordered ↔ c ∈ db.configs.rows := List.mem_mergeSort

lemma up_eq_some (h : up env now n db = some (db', n')) :
    db.ordered.foldlM (addConfig env now) (addColumns db.managers, n) =
      some (db'.managers, n') := by
  obtain ⟨s, hfold, heq⟩ := Option.map_eq_some_iff.mp h
  cases heq
  exact hfold

/-- The migration succeeds: no search goes on for ever, and no row is refused. -/
lemma up_fresh (now : Text) (hfresh : Fresh env n db.managers.taken) :
    ∃ db' n', up env now n db = some (db', n') ∧ Fresh env n' db'.managers.taken := by
  obtain ⟨s, hfold, hfresh'⟩ := foldlM_addConfig_fresh now db.ordered
    (s := (addColumns db.managers, n)) (by rwa [addColumns, Table.map_taken])
  exact ⟨⟨s.1⟩, s.2, by rw [up, hfold]; rfl, hfresh'⟩

/-- The managers that were there are settled, and the other ones are those of configs. -/
lemma up_rows (h : up env now n db = some (db', n')) :
    ∃ own, db'.managers.rows =
        db.managers.rows.map (fun m => settled env now db.ordered m.addColumns) ++ own ∧
      ∀ m ∈ own, ∃ c ∈ db.configs.rows, ∃ id name, m = ownProfile env now id name c := by
  obtain ⟨own, hrows, hown⟩ := foldlM_addConfig_rows (up_eq_some h)
  rw [addColumns, Table.map_rows, List.map_map] at hrows
  refine ⟨own, hrows, fun m hm => ?_⟩
  obtain ⟨c, hc, id, name, heq⟩ := hown m hm
  exact ⟨c, mem_ordered.mp hc, id, name, heq⟩

/-- A manager with a port has the destination of a config. -/
lemma destination_of_port (h : up env now n db = some (db', n')) {m : Manager SyslogColumns}
    (hm : m ∈ db'.managers.rows) (hport : m.syslog.port ≠ none) :
    ∃ c ∈ db.configs.rows, m.destination = some (c.destination env) := by
  obtain ⟨own, hrows, hown⟩ := up_rows h
  rw [hrows] at hm
  rcases List.mem_append.mp hm with hm | hm
  · obtain ⟨m₀, -, rfl⟩ := List.mem_map.mp hm
    rw [settled] at hport ⊢
    cases hfind : db.ordered.find? (matching m₀.addColumns) with
    | none =>
      rw [hfind] at hport
      exact absurd rfl hport
    | some c => exact ⟨c, mem_ordered.mp (List.mem_of_find?_eq_some hfind), rfl⟩
  · obtain ⟨c, hc, id, name, rfl⟩ := hown m hm
    exact ⟨c, hc, rfl⟩

/-- The destinations of the managers are those of the configs. -/
theorem destinations_up (h : up env now n db = some (db', n')) (d : Destination) :
    (∃ m ∈ db'.managers.rows, m.destination = some d) ↔
      ∃ c ∈ db.configs.rows, c.destination env = d := by
  constructor
  · rintro ⟨m, hm, hd⟩
    obtain ⟨c, hc, hd'⟩ := destination_of_port h hm (port_of_destination hd)
    exact ⟨c, hc, Option.some.inj (hd'.symm.trans hd)⟩
  · rintro ⟨c, hc, rfl⟩
    exact foldlM_addConfig_destination (up_eq_some h) (mem_ordered.mpr hc)

end Up

/-! ## Down -/

section Down

abbrev Configs := Table SyslogConfig SyslogConfig.keys

lemma configOf_keys {id : Text} {m : Manager SyslogColumns} {c : SyslogConfig}
    (h : configOf now id m = some c) : c.keys = [.name m.name, .id id] := by
  rw [configOf.eq_def] at h
  split at h
  · obtain rfl := Option.some.inj h
    rfl
  · cases h

/-- Only the id of a config depends on the id that is made. -/
lemma configOf_isSome (id id' : Text) (m : Manager SyslogColumns) :
    (configOf now id m).isSome = (configOf now id' m).isSome := by
  rw [configOf.eq_def, configOf.eq_def]
  split <;> rfl

lemma foldlM_addManager_configs {ms : List (Manager SyslogColumns)} {s s' : Configs × ℕ}
    (h : ms.foldlM (addManager env now) s = some s') :
    (∀ c ∈ s.1.rows, c ∈ s'.1.rows) ∧
      (∀ c ∈ s'.1.rows, c ∈ s.1.rows ∨ ∃ m ∈ ms, ∃ id, configOf now id m = some c) ∧
      ∀ m ∈ ms, ∀ id, (configOf now id m).isSome = true →
        ∃ id', ∃ c ∈ s'.1.rows, configOf now id' m = some c := by
  induction ms generalizing s with
  | nil =>
    obtain rfl := Option.some.inj h
    exact ⟨fun _ hc => hc, fun _ hc => .inl hc, fun m hm => absurd hm List.not_mem_nil⟩
  | cons m ms ih =>
    rw [List.foldlM_cons, Option.bind_eq_bind, Option.bind_eq_some_iff] at h
    obtain ⟨s₁, hadd, hrest⟩ := h
    obtain ⟨hkept, horigin, hall⟩ := ih hrest
    rw [addManager] at hadd
    cases hconfig : configOf now (env.uuid s.2) m with
    | none =>
      rw [hconfig] at hadd
      obtain rfl := Option.some.inj hadd
      refine ⟨hkept, fun c hc => (horigin c hc).imp_right fun ⟨m', hm', hid⟩ =>
        ⟨m', List.mem_cons_of_mem _ hm', hid⟩, fun m' hm' id hsome => ?_⟩
      rcases List.mem_cons.mp hm' with rfl | hm'
      · rw [configOf_isSome id (env.uuid s.2), hconfig] at hsome
        exact absurd hsome Bool.false_ne_true
      · exact hall m' hm' id hsome
    | some c =>
      rw [hconfig] at hadd
      obtain ⟨configs, hinsert, rfl⟩ := Option.map_eq_some_iff.mp hadd
      have hrows := Table.insert_rows hinsert
      refine ⟨fun c' hc' => hkept c' ?_, fun c' hc' => ?_, fun m' hm' id hsome => ?_⟩
      · rw [hrows]
        exact List.mem_append_left _ hc'
      · rcases horigin c' hc' with hc' | ⟨m', hm', hid⟩
        · rw [hrows] at hc'
          rcases List.mem_append.mp hc' with hc' | hc'
          · exact .inl hc'
          · obtain rfl := List.mem_singleton.mp hc'
            exact .inr ⟨m, List.mem_cons_self, _, hconfig⟩
        · exact .inr ⟨m', List.mem_cons_of_mem _ hm', hid⟩
      · rcases List.mem_cons.mp hm' with rfl | hm'
        · refine ⟨_, c, hkept c ?_, hconfig⟩
          rw [hrows]
          exact List.mem_append_right _ (List.mem_singleton_self c)
        · exact hall m' hm' id hsome

/-- No row is refused: the names are those of the managers, and the ids are new. -/
lemma foldlM_addManager_fresh (now : Text) {ms : List (Manager SyslogColumns)} {s : Configs × ℕ}
    (hnames : (ms.map Manager.name).Nodup) (hfree : ∀ m ∈ ms, UniqueKey.name m.name ∉ s.1.taken)
    (hfresh : Fresh env s.2 s.1.taken) :
    ∃ s', ms.foldlM (addManager env now) s = some s' ∧ s.2 ≤ s'.2 := by
  induction ms generalizing s with
  | nil => exact ⟨s, rfl, le_rfl⟩
  | cons m ms ih =>
    rw [List.map_cons, List.nodup_cons] at hnames
    rw [List.foldlM_cons, addManager]
    cases hconfig : configOf now (env.uuid s.2) m with
    | none =>
      obtain ⟨s', hrest, hle⟩ := ih hnames.2 (fun m' hm' => hfree m' (List.mem_cons_of_mem _ hm')) hfresh
      exact ⟨s', hrest, hle⟩
    | some c =>
      have hkeys := configOf_keys hconfig
      obtain ⟨configs, hinsert⟩ := Table.insert_eq_some (t := s.1) (r := c) (by simp [hkeys])
        (by simp [hkeys, hfree m List.mem_cons_self, hfresh s.2 le_rfl])
      have htaken := Table.insert_taken hinsert
      obtain ⟨s', hrest, hle⟩ := ih (s := (configs, s.2 + 1)) hnames.2
        (by
          intro m' hm' hname
          rw [htaken, List.mem_append, hkeys] at hname
          rcases hname with hname | hname
          · exact hfree m' (List.mem_cons_of_mem _ hm') hname
          · have hsame : m'.name = m.name := by simpa using hname
            exact hnames.1 (hsame ▸ List.mem_map_of_mem hm'))
        (by
          intro k hk hid
          rw [htaken, List.mem_append, hkeys] at hid
          rcases hid with hid | hid
          · exact hfresh k (Nat.le_of_succ_le hk) hid
          · have := env.uuid_injective (by simpa using hid : env.uuid k = env.uuid s.2)
            omega)
      have hle' : s.2 ≤ s'.2 := Nat.le_of_succ_le hle
      refine ⟨s', ?_, hle'⟩
      simp only [hinsert]
      exact hrest

end Down

/-! ## Up, down and up again -/

/-- No two managers have one name. -/
lemma names_nodup {S : Type} (managers : Managers S) :
    (managers.rows.map Manager.name).Nodup := by
  rw [List.Nodup, List.pairwise_map]
  refine (List.nodup_flatMap.mp managers.unique).2.imp fun {m m'} hdisjoint hname => ?_
  exact hdisjoint (mem_keys_name.mpr rfl) (mem_keys_name.mpr hname.symm)

lemma SyslogConfig.port_ne_zero (c : SyslogConfig) : c.port ≠ 0 := by
  rw [SyslogConfig.port.eq_def]
  split
  · split_ifs with h
    · decide
    · exact h
  · decide

lemma textOr_ne_nil {default : Text} (h : default ≠ []) (t : Option Text) :
    textOr default t ≠ [] := by
  rcases t with _ | _ | ⟨c, t⟩
  · exact h
  · exact h
  · exact List.cons_ne_nil c t

lemma textOr_some {default t : Text} (h : t ≠ []) : textOr default (some t) = t := by
  cases t with
  | nil => exact absurd rfl h
  | cons c t => rfl

lemma configOf_of (now : Text) {m : Manager SyslogColumns} {ip : Text} {port : ℤ} (hip : m.siemIp = some ip)
    (hne : ip ≠ []) (hport : m.syslog.port = some port) (id : Text) :
    ∃ c, configOf now id m = some c ∧ c.targetIp = ip ∧ c.targetPort = some port ∧
      c.protocol = some (textOr "tcp".toList m.syslog.protocol) := by
  obtain ⟨ch, rest, rfl⟩ := List.exists_cons_of_ne_nil hne
  exact ⟨_, by simp only [configOf, hip, hport]; rfl, rfl, rfl, rfl⟩

/-- A config that is made of a manager has the destination that the manager got. -/
lemma destination_configOf (now : Text) {m : Manager SyslogColumns} {c₀ : SyslogConfig}
    (hd : m.destination = some (c₀.destination env)) (hip : c₀.targetIp ≠ []) (id : Text) :
    ∃ c, configOf now id m = some c ∧ c.destination env = c₀.destination env := by
  rw [Manager.destination.eq_def] at hd
  split at hd
  · next ip port protocol hsiemIp hport hprotocol =>
    obtain ⟨rfl, rfl, rfl⟩ : ip = c₀.targetIp ∧ port = c₀.port ∧ protocol = c₀.protocolName env := by
      simpa [SyslogConfig.destination] using hd
    obtain ⟨c, hc, htarget, htargetPort, hname⟩ := configOf_of now hsiemIp hip hport id
    have hne : c₀.protocolName env ≠ [] :=
      env.lower_ne_nil _ (textOr_ne_nil (by decide) c₀.protocol)
    -- the port is not 0, and the protocol is in lower case already
    have hport' : c.port = c₀.port := by
      rw [SyslogConfig.port, htargetPort]
      exact if_neg c₀.port_ne_zero
    have hname' : c.protocolName env = c₀.protocolName env := by
      rw [SyslogConfig.protocolName, hname, hprotocol, textOr_some hne, textOr_some hne]
      exact env.lower_lower _
    exact ⟨c, hc, by rw [SyslogConfig.destination, htarget, hport', hname', SyslogConfig.destination]⟩
  · cases hd

section RoundTrip

variable {n n₁ n₂ n₃ : ℕ} {db : Version8} {db₁ : Version9} {now' now'' : Text}

lemma down_eq_some {db₂ : Version8} (h : down env now n db₁ = some (db₂, n₂)) :
    db₂.managers = dropColumns db₁.managers ∧
      db₁.managers.rows.foldlM (addManager env now) (Table.empty SyslogConfig.keys, n) =
        some (db₂.configs, n₂) := by
  obtain ⟨s, hfold, heq⟩ := Option.map_eq_some_iff.mp h
  cases heq
  exact ⟨rfl, hfold⟩

lemma down_fresh (now : Text) (hfresh : Fresh env n db₁.managers.taken) :
    ∃ db₂ n₂, down env now n db₁ = some (db₂, n₂) ∧ Fresh env n₂ db₂.managers.taken := by
  have hempty : Fresh env n (Table.empty SyslogConfig.keys).taken := fun _ _ => List.not_mem_nil
  obtain ⟨s, hfold, hle⟩ := foldlM_addManager_fresh now (s := (Table.empty SyslogConfig.keys, n))
    (names_nodup db₁.managers) (fun _ _ => List.not_mem_nil) hempty
  refine ⟨_, s.2, by rw [down, hfold]; rfl, fun k hk htaken => hfresh k (le_trans hle hk) ?_⟩
  rwa [dropColumns, Table.map_taken] at htaken

/-- After the way back, the configs have the destinations of the configs there were. -/
lemma configs_down {db₂ : Version8} (hup : up env now n db = some (db₁, n₁))
    (hdown : down env now' n₁ db₁ = some (db₂, n₂)) (hip : ∀ c ∈ db.configs.rows, c.targetIp ≠ [])
    (d : Destination) :
    (∃ c ∈ db₂.configs.rows, c.destination env = d) ↔
      ∃ c ∈ db.configs.rows, c.destination env = d := by
  obtain ⟨-, horigin, hall⟩ := foldlM_addManager_configs (down_eq_some hdown).2
  constructor
  · rintro ⟨c, hc, rfl⟩
    obtain ⟨m, hm, id, hconfig⟩ := (horigin c hc).resolve_left List.not_mem_nil
    have hport : m.syslog.port ≠ none := by
      intro hnone
      simp [configOf, hnone] at hconfig
    obtain ⟨c₀, hc₀, hd⟩ := destination_of_port hup hm hport
    obtain ⟨c', hconfig', hsame⟩ := destination_configOf now' hd (hip c₀ hc₀) id
    rw [hconfig] at hconfig'
    rw [Option.some.inj hconfig', hsame]
    exact ⟨c₀, hc₀, rfl⟩
  · rintro ⟨c₀, hc₀, rfl⟩
    obtain ⟨m, hm, hd⟩ := (destinations_up hup _).mpr ⟨c₀, hc₀, rfl⟩
    obtain ⟨c', hconfig', -⟩ := destination_configOf now' hd (hip c₀ hc₀) []
    obtain ⟨id, c, hc, hconfig⟩ := hall m hm [] (by rw [hconfig']; rfl)
    obtain ⟨c'', hconfig'', hsame⟩ := destination_configOf now' hd (hip c₀ hc₀) id
    rw [hconfig] at hconfig''
    exact ⟨c, hc, by rw [Option.some.inj hconfig'', hsame]⟩

end RoundTrip

/-- **No destination is lost.**  The migration succeeds, every config's destination is that of a
manager, and a manager that was there is as it was, but for the address, the port, the protocol
and the time of update where it is linked to a config and has its address or none; the first such
config counts.  Names stay distinct, and the search for one ends.  Undone and made again, the
migration gives the same destinations, if no address is empty. -/
theorem destinations_kept (env : SyslogEnv) (now now' now'' : Text) (n : ℕ) (db : Version8)
    (hfresh : Fresh env n db.managers.taken) :
    (∀ taken name fuel, taken.length < fuel → (searchName taken name fuel 1).isSome = true) ∧
    ∃ db₁ n₁, up env now n db = some (db₁, n₁) ∧
      (∀ c ∈ db.configs.rows, ∃ m ∈ db₁.managers.rows, m.destination = some (c.destination env)) ∧
      (∃ own, db₁.managers.rows =
        db.managers.rows.map (fun m => settled env now db.ordered m.addColumns) ++ own) ∧
      (db₁.managers.rows.map Manager.name).Nodup ∧
      ((∀ c ∈ db.configs.rows, c.targetIp ≠ []) →
        ∃ db₂ n₂ db₃ n₃, down env now' n₁ db₁ = some (db₂, n₂) ∧
          up env now'' n₂ db₂ = some (db₃, n₃) ∧
          ∀ d, (∃ m ∈ db₃.managers.rows, m.destination = some d) ↔
            ∃ m ∈ db₁.managers.rows, m.destination = some d) := by
  obtain ⟨db₁, n₁, hup, hfresh₁⟩ := up_fresh now hfresh
  obtain ⟨own, hrows, -⟩ := up_rows hup
  refine ⟨fun taken name fuel => searchName_ends taken name, db₁, n₁, hup, fun c hc => ?_,
    ⟨own, hrows⟩, names_nodup _, fun hip => ?_⟩
  · exact (destinations_up hup _).mpr ⟨c, hc, rfl⟩
  · obtain ⟨db₂, n₂, hdown, hfresh₂⟩ := down_fresh now' hfresh₁
    obtain ⟨db₃, n₃, hup', -⟩ := up_fresh now'' hfresh₂
    refine ⟨db₂, n₂, db₃, n₃, hdown, hup', fun d => ?_⟩
    rw [destinations_up hup', configs_down hup hdown hip, destinations_up hup]

/-! ## A linked profile -/

lemma toLower_toLower (c : Char) : c.toLower.toLower = c.toLower := by
  by_cases hupper : c.val ≥ 'A'.val ∧ c.val ≤ 'Z'.val
  · have hval : c.toLower.val = c.val + ('a'.val - 'A'.val) :=
      congrArg Char.val (dif_pos hupper : c.toLower = _)
    have hlower : ¬(c.toLower.val ≥ 'A'.val ∧ c.toLower.val ≤ 'Z'.val) := by
      rw [hval]
      rintro ⟨-, hle⟩
      have hfrom := UInt32.le_iff_toNat_le.mp hupper.1
      have hto := UInt32.le_iff_toNat_le.mp hupper.2
      rw [UInt32.le_iff_toNat_le] at hle
      simp [UInt32.toNat_add] at hle hfrom hto
      omega
    generalize c.toLower = d at hlower
    exact dif_neg hlower
  · have hsame : c.toLower = c := dif_neg hupper
    rw [hsame, hsame]

/-- Ids are numbers. -/
def sampleSyslogEnv : SyslogEnv where
  uuid := number
  uuid_injective := number_injective
  lower t := t.map Char.toLower
  lower_lower t := by
    rw [List.map_map]
    exact List.map_congr_left fun c _ => toLower_toLower c
  lower_ne_nil t h := by simpa using h

/-- A profile without an address. -/
def corp : Manager Unit where
  managerId := some "corp".toList
  name := "Corporate".toList
  description := none
  siemType := "wazuh".toList
  siemIp := none
  siemVersion := none
  siemAuthKey := none
  osType := some "ubuntu_22_04".toList
  agentGroup := some "default".toList
  memoryLimit := some "512MB".toList
  cpuShares := some 1024
  configTemplateId := none
  createdAt := some "2026-01-01T00:00:00+00:00".toList
  updatedAt := some "2026-01-01T00:00:00+00:00".toList
  detectionUrl := none
  detectionUsername := none
  detectionSecret := none
  detectionFingerprint := none
  syslog := ()

/-- A config that is linked to it. -/
def corpSyslog : SyslogConfig where
  configId := some "c1".toList
  name := "Corporate syslog".toList
  description := none
  managerProfileId := some "corp".toList
  targetIp := "192.0.2.10".toList
  targetPort := none
  protocol := some "UDP".toList
  siemType := none
  enabled := some 1
  createdAt := none
  updatedAt := none

def corpDb : Version8 where
  managers := ⟨[corp], by decide⟩
  configs := ⟨[corpSyslog], by decide⟩

def migratedAt : Text := "2026-02-01T00:00:00+00:00".toList

lemma corpDb_fresh : Fresh sampleSyslogEnv 0 corpDb.managers.taken := by
  intro k _ htaken
  have hid : number k = "corp".toList := by
    simpa [corpDb, Table.taken, Manager.keys, corp, sampleSyslogEnv] using htaken
  have hmem : 'c' ∈ Nat.toDigits 10 k := by
    rw [show Nat.toDigits 10 k = "corp".toList from hid]
    decide
  exact absurd (Nat.isDigit_of_mem_toDigits (by decide) (by decide) hmem) (by decide)

theorem destinations_kept_corp :
    (∀ taken name fuel, taken.length < fuel → (searchName taken name fuel 1).isSome = true) ∧
    ∃ db₁ n₁, up sampleSyslogEnv migratedAt 0 corpDb = some (db₁, n₁) ∧
      (∀ c ∈ corpDb.configs.rows,
        ∃ m ∈ db₁.managers.rows, m.destination = some (c.destination sampleSyslogEnv)) ∧
      (∃ own, db₁.managers.rows =
        corpDb.managers.rows.map
          (fun m => settled sampleSyslogEnv migratedAt corpDb.ordered m.addColumns) ++ own) ∧
      (db₁.managers.rows.map Manager.name).Nodup ∧
      ((∀ c ∈ corpDb.configs.rows, c.targetIp ≠ []) →
        ∃ db₂ n₂ db₃ n₃, down sampleSyslogEnv migratedAt n₁ db₁ = some (db₂, n₂) ∧
          up sampleSyslogEnv migratedAt n₂ db₂ = some (db₃, n₃) ∧
          ∀ d, (∃ m ∈ db₃.managers.rows, m.destination = some d) ↔
            ∃ m ∈ db₁.managers.rows, m.destination = some d) :=
  destinations_kept sampleSyslogEnv migratedAt migratedAt migratedAt 0 corpDb corpDb_fresh

/-- The time of the profile's update changes as well. -/
theorem linked_profile_updated :
    ∃ db₁ n₁, up sampleSyslogEnv migratedAt 0 corpDb = some (db₁, n₁) ∧
      ∃ m ∈ db₁.managers.rows, m.managerId = corp.managerId ∧
        m ≠ { corp.addColumns with siemIp := m.siemIp, syslog := m.syslog } := by
  obtain ⟨db₁, n₁, hup, -⟩ := up_fresh migratedAt corpDb_fresh
  obtain ⟨own, hrows, -⟩ := up_rows hup
  have hordered : corpDb.ordered = [corpSyslog] := List.mergeSort_singleton _
  refine ⟨db₁, n₁, hup, settled sampleSyslogEnv migratedAt [corpSyslog] corp.addColumns, ?_,
    by decide, by decide⟩
  rw [hrows, hordered]
  exact List.mem_append_left _ List.mem_cons_self

end Habeny.Migrations
