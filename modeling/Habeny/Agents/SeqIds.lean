import Habeny.Agents.Groups
import Habeny.Agents.Table
import Habeny.Lib.Transition

/-!
# Numbers of containers and the import of old metadata

A container gets its number from a counter that is stored apart from the rows.  Two writers may
bring a number of their own: a dictionary with a `seq_id`, or for a new row an `agent_seq_id`.
The files in which older versions kept the metadata may have either of them, and they are read
at every start, whatever the rows say by then.

As long as every number that is brought is the row's own or below the counter, and no file
differs from what the program has written into its row (`Harmless`), every container can get a
number, keeps it, and shares it with no other.
-/

namespace Habeny.Agents

open Habeny.Lib

/-! ## Steps -/

/-- The columns of a row. -/
def Column.all : List Column :=
  [.siemType, .siemIp, .siemVersion, .agentGroup, .osType, .configTemplateId, .lifecycleStatus,
   .state, .initPid, .ipAddresses, .siemAgentStatus, .siemAgentRunning, .siemAgentLastCheck,
   .managerHost, .managerPort, .managerStatus, .managerReachable, .syslogListener, .createdAt,
   .deletedAt]

/-- A file with old metadata: its name without the extension, the names that it gives, and its
values, if it can be read. -/
structure LegacyFile where
  stem : Text
  agentName : Option Text
  agentId : Option Text
  data : Option Metadata

/-- The container that a file is about. -/
def LegacyFile.name (file : LegacyFile) : Text :=
  ((file.agentName.filter fun t => !t.isEmpty).or (file.agentId.filter fun t => !t.isEmpty)).getD
    file.stem

/-- The table, the numbers that were asked for, newest first, the columns of each container that
the program has written, and whether a file has replaced one of these by something else. -/
structure Numbering where
  table : Table
  answers : List (Text × ℤ)
  written : Text → Column → Bool
  replaced : Bool

inductive NumberAction where
  | getOrCreate (name now : Text)
  | write (name : Text) (metadata : Metadata) (now : Text)
  | delete (name now : Text)
  | importFile (file : LegacyFile) (now : Text)

namespace Table

/-- The number that a write of a dictionary has for a container before it asks for one. -/
def numberToWrite (t : Table) (name : Text) (metadata : Metadata) : Option ℤ :=
  numberOf ((readAgentMetadata t.store name).override metadata)

/-- Whether a write succeeds. -/
def accepts (t : Table) (name : Text) (metadata : Metadata) (now : Text) : Bool :=
  match t.numberToWrite name metadata with
  | some seqId => !t.taken name seqId
  | none => (t.getOrCreate name now).isSome

/-- Mark the row of a container as deleted. -/
def delete (t : Table) (name now : Text) : Table :=
  t.withRows (markAgentDeleted t.store name now) fun n => by
    simp only [markAgentDeleted, updateWhere_rows, Option.map_map]
    congr 1
    funext row
    simp only [Function.comp_apply]
    split_ifs <;> rfl

end Table

namespace Numbering

/-- A new installation. -/
def start : Numbering :=
  { table := .empty, answers := [], written := fun _ _ => false, replaced := false }

/-- The program has written some columns of a container. -/
def note (s : Numbering) (name : Text) (columns : Column → Bool) : Text → Column → Bool :=
  fun n c => s.written n c || (decide (n = name) && columns c)

/-- A file differs from what the program has written into the row of its container. -/
def replaces (s : Numbering) (name : Text) (data : Metadata) : Bool :=
  (s.table.store.rows name).any fun row =>
    Column.all.any fun c => s.written name c && (data.field c).any fun v => decide (row.field c ≠ v)

/-- Import a file. -/
def importData (s : Numbering) (name : Text) (data : Metadata) (now : Text) : Numbering :=
  { s with
    table := s.table.write name data now
    replaced := s.replaced || (s.table.accepts name data now && s.replaces name data) }

def step (s : Numbering) : NumberAction → Option Numbering
  | .getOrCreate name now =>
    match s.table.getOrCreate name now with
    | none => some s
    | some (table, seqId) =>
      some { s with
        table
        answers := (name, seqId) :: s.answers
        written :=
          s.note name fun c => (s.table.store.rows name).isNone && decide (c = .createdAt) }
  | .write name metadata now =>
    some { s with
      table := s.table.write name metadata now
      written := s.note name fun c =>
        s.table.accepts name metadata now && ((metadata.field c).isSome ||
          (s.table.store.rows name).isNone && decide (c = .createdAt)) }
  | .delete name now =>
    some { s with
      table := s.table.delete name now
      written := s.note name fun c => decide (c = .deletedAt ∨ c = .syslogListener) }
  | .importFile file now =>
    match file.data with
    | none => some s
    | some data => some (s.importData file.name data now)

/-! ## What is claimed -/

/-- Every container can get a number; the numbers that were given are one for each container; and
no file has replaced what the program has written. -/
structure Available (s : Numbering) : Prop where
  succeeds : ∀ name now, (s.table.getOrCreate name now).isSome = true
  stable : ∀ p ∈ s.answers, ∀ q ∈ s.answers, p.1 = q.1 ↔ p.2 = q.2
  newest : s.replaced = false

/-- A number that a dictionary brings for a container is another row's, so that the write fails,
or the row's own, or one below the counter for a container that was not asked about yet. -/
def NumberFits (s : Numbering) (name : Text) (metadata : Metadata) : Prop :=
  ∀ seqId, s.table.numberToWrite name metadata = some seqId →
    s.table.taken name seqId = true ∨ (∃ row ∈ s.table.store.rows name, row.seqId = seqId) ∨
      (seqId < s.table.store.nextSeqId ∧ ∀ p ∈ s.answers, p.1 ≠ name)

/-- The condition under which that holds. -/
def Harmless (s : Numbering) : NumberAction → Prop
  | .write name metadata _ => s.NumberFits name metadata
  | .importFile file now =>
    ∀ data, file.data = some data → s.NumberFits file.name data ∧
      (s.table.accepts file.name data now = true → ∀ row ∈ s.table.store.rows file.name,
        ∀ c v, data.field c = some v → s.written file.name c = true → row.field c = v)
  | .getOrCreate .. | .delete .. => True

end Numbering

/-! ## What a write does -/

namespace Table

variable {t : Table} {name : Text}

/-- The ways in which a write leaves the table: as it is, or with a row whose number no other row
has, which is the one it brought, the old row's, or the next. -/
inductive Writes (t : Table) (name : Text) (metadata : Metadata) (t' : Table) : Prop
  | same (h : t' = t)
  | row (row : Row) (hrows : t'.store.rows = Function.update t.store.rows name (some row))
      (hfree : t.taken name row.seqId = false)
      (hnext : t'.store.nextSeqId = t.store.nextSeqId)
      (hseq : t.numberToWrite name metadata = some row.seqId ∨
        ∃ old, t.store.rows name = some old ∧ row.seqId = old.seqId)
  | new (row : Row) (hrows : t'.store.rows = Function.update t.store.rows name (some row))
      (hnone : t.store.rows name = none) (hseq : row.seqId = t.store.nextSeqId)
      (hnext : t'.store.nextSeqId = t.store.nextSeqId + 1)

lemma write_writes (t : Table) (name : Text) (metadata : Metadata) (now : Text) :
    Writes t name metadata (t.write name metadata now) := by
  cases hnumber : t.numberToWrite name metadata with
  | some seqId =>
    have hwrite : t.write name metadata now
        = (t.upsert name seqId
          ((readAgentMetadata t.store name).override metadata).field).getD t := by
      simp only [write, show numberOf _ = _ from hnumber]
    rw [hwrite]
    by_cases htaken : t.taken name seqId = true
    · exact .same (by rw [upsert_eq_none_iff.mpr htaken]; rfl)
    · have hfree := Bool.eq_false_iff.mpr htaken
      rw [upsert_of_free hfree]
      exact .row _ rfl hfree rfl (.inl hnumber)
  | none =>
    cases hrow : t.store.rows name with
    | some old =>
      rw [write_of_some hrow]
      have hnumberFor : numberFor metadata old = old.seqId := by
        simp only [numberToWrite, readAgentMetadata, hrow, Metadata.override, numberOf] at hnumber
        rcases hseq : metadata.seqId with _ | _ | k
        · simp [hseq] at hnumber
        · simp [numberFor, hseq]
        · simp [hseq] at hnumber
      have hown := taken_own hrow
      rw [hnumberFor, upsert_of_free hown]
      exact .row _ rfl hown rfl (.inr ⟨old, hrow, rfl⟩)
    | none =>
      have hnumberOf : numberOf metadata = none := by
        rwa [numberToWrite, readAgentMetadata_of_none hrow, empty_override] at hnumber
      by_cases htaken : t.taken name t.store.nextSeqId = true
      · exact .same (write_fails hrow hnumberOf htaken now)
      · obtain ⟨t', hwrite, hrows, hnext, -⟩ :=
          write_new hrow hnumberOf (Bool.eq_false_iff.mpr htaken) now
        rw [hwrite]
        exact .new _ hrows hrow rfl hnext

/-- A write that is not accepted leaves the table as it is. -/
lemma write_of_accepts_eq_false {metadata : Metadata} {now : Text}
    (h : t.accepts name metadata now = false) : t.write name metadata now = t := by
  unfold accepts at h
  cases hnumber : t.numberToWrite name metadata with
  | some seqId =>
    simp only [hnumber, Bool.not_eq_false'] at h
    simp only [write, show numberOf _ = _ from hnumber, upsert_eq_none_iff.mpr h]
    rfl
  | none =>
    simp only [hnumber, Option.isSome_eq_false_iff, Option.isNone_iff_eq_none] at h
    simp only [write, show numberOf _ = _ from hnumber, h]

end Table

/-! ## The counter stays above the numbers -/

namespace Numbering

/-- The invariant. -/
structure Sound (s : Numbering) : Prop where
  below : ∀ n row, s.table.store.rows n = some row → row.seqId < s.table.store.nextSeqId
  answered : ∀ p ∈ s.answers, ∃ row, s.table.store.rows p.1 = some row ∧ row.seqId = p.2
  newest : s.replaced = false

lemma sound_start : Sound start where
  below := fun n row h => absurd h (by simp [start, Table.empty])
  answered := fun p hp => absurd hp List.not_mem_nil
  newest := rfl

variable {s s' : Numbering}

lemma Sound.free (hs : Sound s) (name : Text) :
    s.table.taken name s.table.store.nextSeqId = false :=
  Table.taken_eq_false_iff.mpr fun n row _ hrow hseq =>
    absurd (hs.below n row hrow) (by rw [hseq]; exact lt_irrefl _)

/-- **The next number is free, and the numbers that were given stand in the rows.** -/
lemma Sound.available (hs : Sound s) : Available s where
  succeeds := fun name now => by
    unfold Table.getOrCreate
    cases s.table.store.rows name with
    | some row => rfl
    | none =>
      have hfree : s.table.taken name (newRow s.table.store.nextSeqId now).seqId = false :=
        hs.free name
      simp only [dif_pos hfree, Option.isSome_some]
  stable := fun p hp q hq => by
    obtain ⟨row, hrow, hseq⟩ := hs.answered p hp
    obtain ⟨row', hrow', hseq'⟩ := hs.answered q hq
    constructor
    · intro hname
      rw [hname, hrow', Option.some.injEq] at hrow
      rw [← hseq, ← hseq', hrow]
    · intro hnumber
      exact s.table.unique p.1 q.1 row row' hrow hrow' (hseq.trans (hnumber.trans hseq'.symm))
  newest := hs.newest

/-- A write whose number fits. -/
lemma Sound.write (hs : Sound s) {name : Text} {metadata : Metadata} {now : Text}
    (hfits : s.NumberFits name metadata) (htable : s'.table = s.table.write name metadata now)
    (hanswers : s'.answers = s.answers) (hreplaced : s'.replaced = false) : Sound s' := by
  rcases s.table.write_writes name metadata now with hsame | ⟨row, hrows, hfree, hnext, hseq⟩ |
    ⟨row, hrows, hnone, hseq, hnext⟩
  · rw [hsame] at htable
    exact ⟨by rw [htable]; exact hs.below, by rw [htable, hanswers]; exact hs.answered, hreplaced⟩
  · -- the number is the row's own, or below the counter for a name without an answer
    have hnumber : (∃ old, s.table.store.rows name = some old ∧ row.seqId = old.seqId) ∨
        (row.seqId < s.table.store.nextSeqId ∧ ∀ p ∈ s.answers, p.1 ≠ name) := by
      rcases hseq with hbrought | hold
      · rcases hfits row.seqId hbrought with htaken | ⟨old, hold, hsame⟩ | hbelow
        · rw [hfree] at htaken
          exact absurd htaken (by simp)
        · exact .inl ⟨old, hold, hsame.symm⟩
        · exact .inr hbelow
      · exact .inl hold
    have hlt : row.seqId < s.table.store.nextSeqId := by
      rcases hnumber with ⟨old, hold, hsame⟩ | ⟨hlt, -⟩
      · rw [hsame]
        exact hs.below name old hold
      · exact hlt
    refine ⟨fun n r hr => ?_, fun p hp => ?_, hreplaced⟩
    · rw [htable, hrows] at hr
      rw [htable, hnext]
      by_cases hn : n = name
      · rw [hn, Function.update_self, Option.some.injEq] at hr
        rwa [← hr]
      · rw [Function.update_of_ne hn] at hr
        exact hs.below n r hr
    · rw [hanswers] at hp
      rw [htable, hrows]
      obtain ⟨r, hr, hrseq⟩ := hs.answered p hp
      by_cases hn : p.1 = name
      · rw [hn, Function.update_self]
        rcases hnumber with ⟨old, hold, hsame⟩ | ⟨-, hunasked⟩
        · rw [hn, hold, Option.some.injEq] at hr
          exact ⟨row, rfl, by rw [hsame, hr, hrseq]⟩
        · exact absurd hn (hunasked p hp)
      · rw [Function.update_of_ne hn]
        exact ⟨r, hr, hrseq⟩
  · refine ⟨fun n r hr => ?_, fun p hp => ?_, hreplaced⟩
    · rw [htable, hrows] at hr
      rw [htable, hnext]
      by_cases hn : n = name
      · rw [hn, Function.update_self, Option.some.injEq] at hr
        rw [← hr, hseq]
        exact Int.lt_add_one_iff.mpr le_rfl
      · rw [Function.update_of_ne hn] at hr
        have := hs.below n r hr
        omega
    · rw [hanswers] at hp
      rw [htable, hrows]
      obtain ⟨r, hr, hrseq⟩ := hs.answered p hp
      have hn : p.1 ≠ name := by
        rintro hn
        rw [hn, hnone] at hr
        exact absurd hr (by simp)
      rw [Function.update_of_ne hn]
      exact ⟨r, hr, hrseq⟩

lemma Sound.getOrCreate (hs : Sound s) {name now : Text} {t : Table} {seqId : ℤ}
    (h : s.table.getOrCreate name now = some (t, seqId)) (htable : s'.table = t)
    (hanswers : s'.answers = (name, seqId) :: s.answers) (hreplaced : s'.replaced = false) :
    Sound s' := by
  subst htable
  rcases Table.getOrCreate_cases h with ⟨row, hrow, hsame, rfl⟩ | ⟨hnone, rfl, -, hstore⟩
  · refine ⟨by rw [hsame]; exact hs.below, fun p hp => ?_, hreplaced⟩
    rw [hanswers] at hp
    rw [hsame]
    rcases List.mem_cons.mp hp with rfl | hp
    · exact ⟨row, hrow, rfl⟩
    · exact hs.answered p hp
  · refine ⟨fun n r hr => ?_, fun p hp => ?_, hreplaced⟩
    · rw [hstore] at hr ⊢
      by_cases hn : n = name
      · subst hn
        simp only [Function.update_self, Option.some.injEq] at hr
        rw [← hr]
        exact Int.lt_add_one_iff.mpr le_rfl
      · simp only [Function.update_of_ne hn] at hr
        have := hs.below n r hr
        dsimp only
        omega
    · rw [hanswers] at hp
      rw [hstore]
      rcases List.mem_cons.mp hp with rfl | hp
      · exact ⟨_, Function.update_self .., rfl⟩
      · obtain ⟨r, hr, hrseq⟩ := hs.answered p hp
        have hn : p.1 ≠ name := by
          rintro hn
          rw [hn, hnone] at hr
          exact absurd hr (by simp)
        exact ⟨r, (Function.update_of_ne hn _ _).trans hr, hrseq⟩

lemma Sound.delete (hs : Sound s) (name now : Text) (htable : s'.table = s.table.delete name now)
    (hanswers : s'.answers = s.answers) (hreplaced : s'.replaced = false) : Sound s' := by
  have hrows : ∀ n, s'.table.store.rows n = (s.table.store.rows n).map fun row =>
      if decide (n = name) then Requests.Row.markDeleted row now else row := by
    intro n
    rw [htable]
    rfl
  have hkeeps : ∀ (n : Text) (row : Row),
      (if decide (n = name) then Requests.Row.markDeleted row now else row).seqId = row.seqId := by
    intro n row
    split_ifs <;> rfl
  refine ⟨fun n r hr => ?_, fun p hp => ?_, hreplaced⟩
  · rw [hrows] at hr
    obtain ⟨old, hold, rfl⟩ := Option.map_eq_some_iff.mp hr
    rw [hkeeps, htable]
    exact hs.below n old hold
  · rw [hanswers] at hp
    obtain ⟨r, hr, hseq⟩ := hs.answered p hp
    exact ⟨_, by rw [hrows, hr]; rfl, (hkeeps p.1 r).trans hseq⟩

/-- A file that agrees with what the program has written replaces nothing. -/
lemma replaces_eq_false {name : Text} {data : Metadata}
    (h : ∀ row ∈ s.table.store.rows name, ∀ c v, data.field c = some v →
      s.written name c = true → row.field c = v) : s.replaces name data = false := by
  unfold replaces
  cases hrow : s.table.store.rows name with
  | none => rfl
  | some row =>
    rw [Option.any_some, List.any_eq_false]
    intro c _ hdiffers
    simp only [Bool.and_eq_true, Option.any_eq_true, decide_eq_true_eq] at hdiffers
    obtain ⟨hwritten, v, hv, hne⟩ := hdiffers
    exact hne (h row hrow c v hv hwritten)

lemma step_sound {a : NumberAction} (hs : Sound s) (hguard : Harmless s a)
    (hstep : step s a = some s') : Sound s' := by
  cases a with
  | getOrCreate name now =>
    simp only [step] at hstep
    rcases hget : s.table.getOrCreate name now with _ | ⟨t, seqId⟩
    · rw [hget] at hstep
      obtain rfl := Option.some.inj hstep
      exact hs
    · rw [hget] at hstep
      obtain rfl := Option.some.inj hstep
      exact hs.getOrCreate hget rfl rfl hs.newest
  | write name metadata now =>
    obtain rfl := Option.some.inj hstep
    exact hs.write hguard rfl rfl hs.newest
  | delete name now =>
    obtain rfl := Option.some.inj hstep
    exact hs.delete name now rfl rfl hs.newest
  | importFile file now =>
    simp only [step] at hstep
    cases hdata : file.data with
    | none =>
      rw [hdata] at hstep
      obtain rfl := Option.some.inj hstep
      exact hs
    | some data =>
      rw [hdata] at hstep
      obtain rfl := Option.some.inj hstep
      obtain ⟨hfits, hnewest⟩ := hguard data hdata
      refine hs.write hfits rfl rfl ?_
      simp only [importData, hs.newest, Bool.false_or]
      cases haccepts : s.table.accepts file.name data now with
      | false => rfl
      | true => exact replaces_eq_false (hnewest haccepts)

def web : Text := "web-0001".toList

def db : Text := "db-0001".toList

/-- A file of an older version, with the number of the container and its state. -/
def oldFile (name : Text) (seqId : ℤ) (state : Text) : LegacyFile where
  stem := name
  agentName := some name
  agentId := none
  data := some
    { seqId := none, agentSeqId := some (some seqId)
      field := fun c => if c = .state then some (.text state) else none }

/-- The program notes the state of a container. -/
def noteState (name : Text) (state : Text) : NumberAction :=
  .write name
    { seqId := none, agentSeqId := none
      field := fun c => if c = .state then some (.text state) else none } []

/-- What an observer sees of the numbers: whether a name can get one, the numbers that were given,
and whether a file has replaced something. -/
def seen (name : Text) (s : Numbering) : Bool × List ℤ × Bool :=
  ((s.table.getOrCreate name []).isSome, s.answers.map Prod.snd, s.replaced)

/-- A container gets its number and its state, and a file of an older version agrees with both. -/
def agreeingRun : List NumberAction :=
  [.getOrCreate web [], noteState web "RUNNING".toList,
    .importFile (oldFile web 1 "RUNNING".toList) []]

lemma run_agreeingRun {s : Numbering} (h : exec step start agreeingRun = some s) :
    Run step Harmless start agreeingRun s := by
  obtain ⟨s₁, h₁, hrest⟩ := Option.bind_eq_some_iff.mp h
  obtain ⟨s₂, h₂, hrest⟩ := Option.bind_eq_some_iff.mp hrest
  obtain ⟨s₃, h₃, hend⟩ := Option.bind_eq_some_iff.mp hrest
  obtain rfl := Option.some.inj hend
  refine .cons trivial h₁ (.cons ?_ h₂ (.cons ?_ h₃ (.nil _)))
  · obtain rfl := Option.some.inj h₁
    intro seqId hseqId
    obtain rfl := Option.some.inj hseqId
    exact .inr (.inl ⟨_, rfl, rfl⟩)
  · obtain rfl := Option.some.inj h₁
    obtain rfl := Option.some.inj h₂
    intro data hdata
    obtain rfl := Option.some.inj hdata
    refine ⟨fun seqId hseqId => ?_, fun _ row hrow c v hv _ => ?_⟩
    · obtain rfl := Option.some.inj hseqId
      exact .inr (.inl ⟨_, rfl, rfl⟩)
    · obtain rfl := Option.some.inj hrow
      dsimp only at hv
      split_ifs at hv with hc
      · subst hc
        obtain rfl := Option.some.inj hv
        rfl

end Numbering

end Habeny.Agents
