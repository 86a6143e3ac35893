import Habeny.Lib.Flock
import Habeny.Lib.Transition

/-!
# One server for a data directory

A server takes the lock of its data directory when it starts, and keeps it as long as it lives.
The workers that it forks have its descriptor as well, and close it when they begin to work; the
command line asks for a shared lock to see whether a server runs.  Every process takes its steps
one by one here, with those of the other processes between them, and may end at any time.
-/

namespace Habeny.Server

open Habeny.Lib

/-! ## Processes -/

/-- How far a process is in `acquire` or `running_pid`, with the description that it has opened. -/
inductive Phase where
  | idle
  | opened (o : ℕ)
  | locked (o : ℕ)
  | truncated (o : ℕ)
  | refused (o : ℕ)
  | probing (o : ℕ)
  | probed (o : ℕ)
  | blocked (o : ℕ)
  deriving DecidableEq

def Phase.handle : Phase → Option ℕ
  | .idle => none
  | .opened o | .locked o | .truncated o | .refused o => some o
  | .probing o | .probed o | .blocked o => some o

/-- Whether a process is in `acquire`. -/
def Phase.acquires : Phase → Bool
  | .opened _ | .locked _ | .truncated _ | .refused _ => true
  | _ => false

/-- The lock that a process in this phase has on the description it has opened. -/
def Phase.lock : Phase → Option LockKind
  | .locked _ | .truncated _ => some .exclusive
  | .probed _ => some .shared
  | _ => none

structure Process where
  /-- the descriptor that is kept (`_fd`) -/
  fd : Option ℕ
  phase : Phase
  /-- the process has taken the lock itself, and not inherited it -/
  owner : Bool

/-- What a process is told: that another server runs, or whether one runs; with the process that
the lock file names. -/
inductive Answer where
  | alreadyRunning (pid : Option ℕ)
  | runs (pid : Option ℕ)
  | notRunning
  deriving DecidableEq

structure World where
  locks : Locks
  procs : ℕ → Option Process
  /-- the process that the lock file names -/
  file : Option ℕ
  answers : List (ℕ × Answer)

/-- Before any process has started; the file may be there. -/
def World.initial (file : Option ℕ) : World :=
  { locks := .empty, procs := fun _ => none, file := file, answers := [] }

def World.put (w : World) (p : ℕ) (pr : Process) : World :=
  { w with procs := Function.update w.procs p (some pr) }

/-! ## Steps -/

inductive Action where
  | start
  | acquireOpen
  | acquireLock
  | truncate
  | write
  /-- another server runs: read which, close the file and raise `AlreadyRunning` -/
  | giveUp
  | fork (child : ℕ)
  /-- `drop_inherited_lock` -/
  | drop
  | exit
  | probeOpen
  | probeLock
  | probeAnswer
  deriving DecidableEq

/-- A step of a process that lives. -/
def act (w : World) (p : ℕ) (pr : Process) : Action → Option World
  | .start => none
  | .acquireOpen =>
    -- a process that has the lock does nothing
    if pr.phase = .idle ∧ pr.fd = none then
      some { w.put p { pr with phase := .opened w.locks.next } with locks := w.locks.openFor p }
    else none
  | .acquireLock =>
    match pr.phase with
    | .opened o =>
      match w.locks.tryLock o .exclusive with
      | some locks => some { w.put p { pr with phase := .locked o } with locks := locks }
      | none => some (w.put p { pr with phase := .refused o })
    | _ => none
  | .truncate =>
    match pr.phase with
    | .locked o => some { w.put p { pr with phase := .truncated o } with file := none }
    | _ => none
  | .write =>
    match pr.phase with
    | .truncated o =>
      some { w.put p { fd := some o, phase := .idle, owner := true } with file := some p }
    | _ => none
  | .giveUp =>
    match pr.phase with
    | .refused o =>
      some { w.put p { pr with phase := .idle } with
        locks := w.locks.close p o, answers := w.answers ++ [(p, .alreadyRunning w.file)] }
    | _ => none
  | .fork child =>
    if pr.phase = .idle ∧ (w.procs child).isNone then
      some { w.put child { pr with owner := false } with locks := w.locks.share p child }
    else none
  | .drop =>
    match pr.fd with
    | some o =>
      if pr.phase = .idle ∧ pr.owner = false then
        some { w.put p { pr with fd := none } with locks := w.locks.close p o }
      else none
    | none => none
  | .exit =>
    some { w with procs := Function.update w.procs p none, locks := w.locks.closeAll p }
  | .probeOpen =>
    if pr.phase = .idle then
      some { w.put p { pr with phase := .probing w.locks.next } with locks := w.locks.openFor p }
    else none
  | .probeLock =>
    match pr.phase with
    | .probing o =>
      match w.locks.tryLock o .shared with
      | some locks => some { w.put p { pr with phase := .probed o } with locks := locks }
      | none => some (w.put p { pr with phase := .blocked o })
    | _ => none
  | .probeAnswer =>
    match pr.phase with
    | .probed o =>
      some { w.put p { pr with phase := .idle } with
        locks := w.locks.close p o, answers := w.answers ++ [(p, .notRunning)] }
    | .blocked o =>
      some { w.put p { pr with phase := .idle } with
        locks := w.locks.close p o, answers := w.answers ++ [(p, .runs w.file)] }
    | _ => none

/-- A step of any process, or a process starts. -/
def step (w : World) (a : ℕ × Action) : Option World :=
  match w.procs a.1 with
  | none =>
    if a.2 = .start then some (w.put a.1 { fd := none, phase := .idle, owner := false }) else none
  | some pr => act w a.1 pr a.2

/-! ## What always holds -/

/-- The descriptions that a process has open. -/
def Process.Uses (pr : Process) (o : ℕ) : Prop := pr.fd = some o ∨ pr.phase.handle = some o

/-- What holds of a process that lives. -/
structure Sound (l : Locks) (file : Option ℕ) (p : ℕ) (pr : Process) : Prop where
  mem : ∀ o, p ∈ l.holders o ↔ pr.Uses o
  differ : ∀ o, pr.fd = some o → pr.phase.handle ≠ some o
  alone : ∀ o, pr.phase.handle = some o → l.holders o = {p}
  kept : ∀ o, pr.fd = some o → l.lock o = some .exclusive
  held : ∀ o, pr.phase.handle = some o → l.lock o = pr.phase.lock
  none_kept : pr.phase.acquires = true → pr.fd = none
  owns : pr.owner = true → pr.fd.isSome = true
  named : pr.owner = true → file = some p

structure Inv (w : World) : Prop where
  sound : ∀ p pr, w.procs p = some pr → Sound w.locks w.file p pr
  dead : ∀ p o, w.procs p = none → p ∉ w.locks.holders o
  /-- no two processes have taken the same lock -/
  apart : ∀ p q pr pr', p ≠ q → w.procs p = some pr → w.procs q = some pr' →
    pr.owner = true → pr'.owner = true → pr.fd ≠ pr'.fd

/-- What a step of another process leaves. -/
lemma Sound.frame {l l' : Locks} {file file' : Option ℕ} {p : ℕ} {pr : Process}
    (h : Sound l file p pr) (hframe : l.Frame l' p) (hfile : pr.owner = true → file' = file) :
    Sound l' file' p pr where
  mem o := (hframe.mem o).trans (h.mem o)
  differ := h.differ
  alone o ho := hframe.single o (h.alone o ho)
  kept o ho := by rw [hframe.lock o ((h.mem o).mpr (.inl ho)), h.kept o ho]
  held o ho := by rw [hframe.lock o ((h.mem o).mpr (.inr ho)), h.held o ho]
  none_kept := h.none_kept
  owns := h.owns
  named ho := by rw [hfile ho, h.named ho]

/-- A process changes, or is there from now on. -/
lemma Inv.put {w : World} (h : Inv w) {p : ℕ} {pr : Process} {l : Locks} {file : Option ℕ}
    {answers : List (ℕ × Answer)} (hp : Sound l file p pr)
    (hothers : ∀ q pr', q ≠ p → w.procs q = some pr' → Sound l file q pr')
    (hdead : ∀ q o, q ≠ p → w.procs q = none → q ∉ l.holders o)
    (hapart : ∀ q pr', q ≠ p → w.procs q = some pr' → pr.owner = true → pr'.owner = true →
      pr.fd ≠ pr'.fd) :
    Inv { w.put p pr with locks := l, file := file, answers := answers } where
  sound q pr' hq := by
    by_cases hqp : q = p
    · subst hqp
      obtain rfl : pr = pr' := by simpa [World.put] using hq
      exact hp
    · exact hothers q pr' hqp (by simpa [World.put, hqp] using hq)
  dead q o hq := by
    by_cases hqp : q = p
    · subst hqp
      simp [World.put] at hq
    · exact hdead q o hqp (by simpa [World.put, hqp] using hq)
  apart a b pra prb hab ha hb hoa hob := by
    by_cases hap : a = p
    · subst hap
      obtain rfl : pr = pra := by simpa [World.put] using ha
      exact hapart b prb (Ne.symm hab) (by simpa [World.put, Ne.symm hab] using hb) hoa hob
    · by_cases hbp : b = p
      · subst hbp
        obtain rfl : pr = prb := by simpa [World.put] using hb
        exact (hapart a pra hap (by simpa [World.put, hap] using ha) hob hoa).symm
      · exact h.apart a b pra prb hab (by simpa [World.put, hap] using ha)
          (by simpa [World.put, hbp] using hb) hoa hob

/-! ## The steps of a process -/

section

variable {l l' : Locks} {file : Option ℕ} {p o : ℕ} {pr : Process} {k : LockKind}

lemma Sound.openFor (h : Sound l file p pr) (hidle : pr.phase = .idle) {ph : Phase}
    (hhandle : ph.handle = some l.next) (hlock : ph.lock = none)
    (hacquires : ph.acquires = true → pr.fd = none) :
    Sound (l.openFor p) file p { pr with phase := ph } where
  mem o := by
    show p ∈ Function.update l.holders l.next {p} o ↔ pr.fd = some o ∨ ph.handle = some o
    rw [hhandle]
    by_cases ho : o = l.next
    · rw [ho, Function.update_self]
      exact ⟨fun _ => .inr rfl, fun _ => Finset.mem_singleton_self p⟩
    · rw [Function.update_of_ne ho, h.mem o, Process.Uses, hidle]
      simp [Phase.handle, Ne.symm ho]
  differ o ho heq := by
    rw [hhandle, Option.some.injEq] at heq
    exact absurd (Locks.lt_next_of_mem ((h.mem o).mpr (.inl ho))) (by omega)
  alone o ho := by
    rw [hhandle, Option.some.injEq] at ho
    exact ho ▸ Function.update_self ..
  kept := h.kept
  held o ho := by
    rw [hhandle, Option.some.injEq] at ho
    subst ho
    exact (l.unlocked _ (l.unopened _ le_rfl)).trans hlock.symm
  none_kept := hacquires
  owns := h.owns
  named := h.named

lemma Sound.lock (h : Sound l file p pr) (hhandle : pr.phase.handle = some o)
    (htry : l.tryLock o k = some l') {ph : Phase} (hph : ph.handle = some o)
    (hlock : ph.lock = some k) (hacquires : ph.acquires = true → pr.phase.acquires = true) :
    Sound l' file p { pr with phase := ph } := by
  obtain ⟨hholders, hnew, -⟩ := Locks.tryLock_eq_some htry
  refine ⟨fun o' => ?_, fun o' ho' => ?_, fun o' ho' => ?_, fun o' ho' => ?_, fun o' ho' => ?_,
    fun ha => h.none_kept (hacquires ha), h.owns, h.named⟩
  · rw [hholders, h.mem o']
    simp [Process.Uses, hhandle, hph]
  · show ph.handle ≠ some o'
    rw [hph, ← hhandle]
    exact h.differ o' ho'
  · rw [hholders]
    exact h.alone o' (by rw [hhandle, ← hph]; exact ho')
  · rw [hnew, Function.update_of_ne]
    · exact h.kept o' ho'
    · rintro rfl
      exact h.differ o' ho' hhandle
  · obtain rfl : o = o' := Option.some.inj (hph.symm.trans ho')
    rw [hnew, Function.update_self]
    exact hlock.symm

/-- Another phase with the same description. -/
lemma Sound.phase (h : Sound l file p pr) {ph : Phase} (hph : ph.handle = pr.phase.handle)
    (hlock : ph.lock = pr.phase.lock)
    (hacquires : ph.acquires = true → pr.phase.acquires = true) :
    Sound l file p { pr with phase := ph } where
  mem o := by rw [h.mem o, Process.Uses, Process.Uses, hph]
  differ o ho := by
    show ph.handle ≠ some o
    rw [hph]
    exact h.differ o ho
  alone o ho := h.alone o (hph ▸ ho)
  kept := h.kept
  held o ho := (h.held o (hph ▸ ho)).trans hlock.symm
  none_kept ha := h.none_kept (hacquires ha)
  owns := h.owns
  named := h.named

lemma Sound.close (h : Sound l file p pr) (hhandle : pr.phase.handle = some o) :
    Sound (l.close p o) file p { pr with phase := .idle } where
  mem o' := by
    show p ∈ Function.update l.holders o ((l.holders o).erase p) o' ↔
      pr.fd = some o' ∨ none = some o'
    by_cases ho : o' = o
    · subst ho
      rw [Function.update_self]
      simp only [Finset.mem_erase, ne_eq, not_true_eq_false, false_and, reduceCtorEq, or_false,
        false_iff]
      exact fun hfd => h.differ o' hfd hhandle
    · rw [Function.update_of_ne ho, h.mem o', Process.Uses, hhandle]
      simp [Ne.symm ho]
  differ _ _ := by simp [Phase.handle]
  alone _ ho := by cases ho
  kept o' ho' := by
    have hne : o' ≠ o := by
      rintro rfl
      exact h.differ o' ho' hhandle
    exact (if_neg fun hboth => hne hboth.1).trans (h.kept o' ho')
  held _ ho := by cases ho
  none_kept ha := by cases ha
  owns := h.owns
  named := h.named

lemma Sound.dropFd (h : Sound l file p pr) (hfd : pr.fd = some o) (hidle : pr.phase = .idle)
    (howner : pr.owner = false) : Sound (l.close p o) file p { pr with fd := none } where
  mem o' := by
    show p ∈ Function.update l.holders o ((l.holders o).erase p) o' ↔
      none = some o' ∨ pr.phase.handle = some o'
    by_cases ho : o' = o
    · subst ho
      rw [Function.update_self, hidle]
      simp [Phase.handle]
    · rw [Function.update_of_ne ho, h.mem o', Process.Uses, hfd]
      simp [Ne.symm ho]
  differ _ ho := by cases ho
  alone o' ho := by
    rw [show ({ pr with fd := none } : Process).phase = pr.phase from rfl, hidle] at ho
    cases ho
  kept _ ho := by cases ho
  held o' ho := by
    rw [show ({ pr with fd := none } : Process).phase = pr.phase from rfl, hidle] at ho
    cases ho
  none_kept _ := rfl
  owns ho := by
    rw [show ({ pr with fd := none } : Process).owner = pr.owner from rfl, howner] at ho
    cases ho
  named := h.named

end

/-- A process that has taken the lock keeps every other process from taking one. -/
lemma Inv.no_other {w : World} (h : Inv w) {p q o : ℕ} {pr pr' : Process} (hp : w.procs p = some pr)
    (hhandle : pr.phase.handle = some o) (hlock : pr.phase.lock = some .exclusive) (hne : q ≠ p)
    (hq : w.procs q = some pr') : pr'.fd = none := by
  cases hfd : pr'.fd with
  | none => rfl
  | some o' =>
    have hs := h.sound p pr hp
    have hs' := h.sound q pr' hq
    -- both locks are exclusive, so the descriptions are one, which is that of `p` alone
    obtain rfl : o = o' := by
      by_contra hother
      have hfree := w.locks.compatible o o' hother ((hs.held o hhandle).trans hlock)
      rw [hs'.kept o' hfd] at hfree
      cases hfree
    have hmem := (hs'.mem o).mpr (.inl hfd)
    rw [hs.alone o hhandle] at hmem
    exact absurd (Finset.mem_singleton.mp hmem) hne

/-- A process changes by a step of its own. -/
lemma Inv.change {w : World} (h : Inv w) {p : ℕ} {pr pr' : Process} (hp : w.procs p = some pr)
    {l : Locks} {file : Option ℕ} {answers : List (ℕ × Answer)}
    (hframe : ∀ q, q ≠ p → w.locks.Frame l q)
    (hfile : ∀ q pr', q ≠ p → w.procs q = some pr' → pr'.owner = true → file = w.file)
    (hsound : Sound l file p pr')
    (howner : pr'.owner = true → pr.owner = true ∧ pr'.fd = pr.fd ∨
      ∀ q pr'', q ≠ p → w.procs q = some pr'' → pr''.fd ≠ pr'.fd) :
    Inv { w.put p pr' with locks := l, file := file, answers := answers } := by
  refine h.put hsound (fun q pr'' hq hw => ?_) (fun q o hq hw hmem => ?_)
    fun q pr'' hq hw ho ho' => ?_
  · exact (h.sound q pr'' hw).frame (hframe q hq) (hfile q pr'' hq hw)
  · exact h.dead q o hw (((hframe q hq).mem o).mp hmem)
  · rcases howner ho with ⟨hold, hfd⟩ | hother
    · rw [hfd]
      exact h.apart p q pr pr'' (Ne.symm hq) hp hw hold ho'
    · exact (hother q pr'' hq hw).symm

lemma Inv.fork {w : World} (h : Inv w) {p child : ℕ} {pr : Process} (hp : w.procs p = some pr)
    (hidle : pr.phase = .idle) (hchild : w.procs child = none) :
    Inv { w.put child { pr with owner := false } with locks := w.locks.share p child } := by
  have hs := h.sound p pr hp
  have hpc : p ≠ child := by
    rintro rfl
    rw [hp] at hchild
    cases hchild
  have hdead := fun o => h.dead child o hchild
  show Inv { w.put child { pr with owner := false } with
    locks := w.locks.share p child, file := w.file, answers := w.answers }
  refine h.put ?_ (fun q pr' hq hw => ?_)
    (fun q o hq hw hmem => ?_) fun q pr' hq hw ho => ?_
  · refine ⟨fun o => ?_, hs.differ, fun o ho => ?_, hs.kept, fun o ho => ?_, hs.none_kept,
      fun ho => ?_, fun ho => ?_⟩
    · rw [Locks.mem_share, hs.mem o]
      exact ⟨fun hmem => hmem.elim (fun hc => absurd hc (hdead o)) And.right,
        fun hu => .inr ⟨rfl, hu⟩⟩
    · rw [show ({ pr with owner := false } : Process).phase = pr.phase from rfl, hidle] at ho
      cases ho
    · rw [show ({ pr with owner := false } : Process).phase = pr.phase from rfl, hidle] at ho
      cases ho
    · cases ho
    · cases ho
  · have hq' := h.sound q pr' hw
    refine ⟨fun o => ?_, hq'.differ, fun o ho => ?_, hq'.kept, hq'.held,
      hq'.none_kept, hq'.owns, hq'.named⟩
    · rw [Locks.mem_share, hq'.mem o]
      exact ⟨fun hmem => hmem.elim id fun hc => absurd hc.1 hq, .inl⟩
    · -- the parent has nothing open that its child could share and it alone has
      have hnot : p ∉ w.locks.holders o := by
        rw [hq'.alone o ho, Finset.mem_singleton]
        rintro rfl
        obtain rfl : pr = pr' := Option.some.inj (hp.symm.trans hw)
        rw [hidle] at ho
        cases ho
      rw [Locks.share_eq_of_notMem hnot]
      exact hq'.alone o ho
  · rcases Locks.mem_share.mp hmem with hmem | ⟨heq, -⟩
    · exact h.dead q o hw hmem
    · exact hq heq
  · cases ho

lemma Inv.exit {w : World} (h : Inv w) (p : ℕ) :
    Inv { w with procs := Function.update w.procs p none, locks := w.locks.closeAll p } where
  sound q pr hq := by
    have hne : q ≠ p := by
      rintro rfl
      simp at hq
    exact (h.sound q pr (by simpa [hne] using hq)).frame (Locks.frame_closeAll hne) fun _ => rfl
  dead q o hq := by
    show q ∉ (w.locks.holders o).erase p
    rw [Finset.mem_erase]
    rintro ⟨hne, hmem⟩
    exact h.dead q o (by simpa [hne] using hq) hmem
  apart a b pra prb hab ha hb hoa hob := by
    have hap : a ≠ p := by
      rintro rfl
      simp at ha
    have hbp : b ≠ p := by
      rintro rfl
      simp at hb
    exact h.apart a b pra prb hab (by simpa [hap] using ha) (by simpa [hbp] using hb) hoa hob

lemma Inv.start {w : World} (h : Inv w) {p : ℕ} (hp : w.procs p = none) :
    Inv (w.put p { fd := none, phase := .idle, owner := false }) := by
  show Inv { w.put p { fd := none, phase := .idle, owner := false } with
    locks := w.locks, file := w.file, answers := w.answers }
  refine h.put ?_
    (fun q pr' _ hw => h.sound q pr' hw) (fun q o _ hw => h.dead q o hw) fun q pr' _ _ ho => ?_
  · refine ⟨fun o => ?_, fun o ho => ?_, fun o ho => ?_, fun o ho => ?_, fun o ho => ?_,
      fun _ => rfl, fun ho => ?_, fun ho => ?_⟩
    · simp [Process.Uses, Phase.handle, h.dead p o hp]
    all_goals cases ho
  · cases ho

/-- Every step of a process that lives keeps the invariant. -/
lemma Inv.act {w w' : World} (h : Inv w) {p : ℕ} {pr : Process} (hp : w.procs p = some pr)
    {a : Action} (hact : act w p pr a = some w') : Inv w' := by
  have hs := h.sound p pr hp
  -- another process has nothing to do with a description that this one alone has
  have hother : ∀ {o q}, pr.phase.handle = some o → q ≠ p → q ∉ w.locks.holders o := by
    intro o q ho hq
    rw [hs.alone o ho]
    exact fun hmem => hq (Finset.mem_singleton.mp hmem)
  have hsame : ∀ q pr', q ≠ p → w.procs q = some pr' → pr'.owner = true → w.file = w.file :=
    fun _ _ _ _ _ => rfl
  cases a with
  | start => cases hact
  | acquireOpen =>
    dsimp only [Server.act] at hact
    split at hact
    · next hguard =>
      obtain rfl := Option.some.inj hact
      exact h.change hp (fun q hq => Locks.frame_openFor hq) hsame
        (hs.openFor hguard.1 rfl rfl fun _ => hguard.2)
        fun ho => .inl ⟨ho, rfl⟩
    · cases hact
  | acquireLock =>
    dsimp only [Server.act] at hact
    split at hact
    · next o hphase =>
      have hhandle : pr.phase.handle = some o := by rw [hphase]; rfl
      split at hact
      · next locks htry =>
        obtain rfl := Option.some.inj hact
        exact h.change hp (fun q hq => Locks.frame_tryLock (hother hhandle hq) htry) hsame
          (hs.lock hhandle htry rfl rfl fun _ => by rw [hphase]; rfl) fun ho => .inl ⟨ho, rfl⟩
      · obtain rfl := Option.some.inj hact
        exact h.change hp (fun q _ => .refl) hsame
          (hs.phase (by rw [hphase]; rfl) (by rw [hphase]; rfl) fun _ => by rw [hphase]; rfl)
          fun ho => .inl ⟨ho, rfl⟩
    · cases hact
  | truncate =>
    dsimp only [Server.act] at hact
    split at hact
    · next o hphase =>
      obtain rfl := Option.some.inj hact
      have hhandle : pr.phase.handle = some o := by rw [hphase]; rfl
      have hlock : pr.phase.lock = some .exclusive := by rw [hphase]; rfl
      have hfd : pr.fd = none := hs.none_kept (by rw [hphase]; rfl)
      have howner : pr.owner = false := by
        by_contra ho
        have := hs.owns (by simpa using ho)
        rw [hfd] at this
        cases this
      have hsame : (Phase.truncated o).handle = pr.phase.handle := hhandle.symm
      have hphase' := hs.phase hsame hlock.symm fun _ => by rw [hphase]; rfl
      refine h.change hp (fun q _ => .refl) (fun q pr' hq hw ho => ?_)
        { hphase' with named := fun ho => ?_ } fun ho => .inl ⟨ho, rfl⟩
      · have hisSome := (h.sound q pr' hw).owns ho
        rw [h.no_other hp hhandle hlock hq hw] at hisSome
        cases hisSome
      · rw [howner] at ho
        cases ho
    · cases hact
  | write =>
    dsimp only [Server.act] at hact
    split at hact
    · next o hphase =>
      obtain rfl := Option.some.inj hact
      have hhandle : pr.phase.handle = some o := by rw [hphase]; rfl
      have hlock : pr.phase.lock = some .exclusive := by rw [hphase]; rfl
      have hfd : pr.fd = none := hs.none_kept (by rw [hphase]; rfl)
      refine h.change hp (fun q _ => .refl) (fun q pr' hq hw ho => ?_) ?_
        fun _ => .inr fun q pr'' hq hw heq => ?_
      · have hisSome := (h.sound q pr' hw).owns ho
        rw [h.no_other hp hhandle hlock hq hw] at hisSome
        cases hisSome
      · refine ⟨fun o' => ?_, fun o' _ ho' => ?_, fun o' ho' => ?_, fun o' ho' => ?_,
          fun o' ho' => ?_, fun ha => ?_, fun _ => rfl, fun _ => rfl⟩
        · show p ∈ w.locks.holders o' ↔ _
          rw [hs.mem o', Process.Uses, Process.Uses, hfd, hhandle]
          simp [Phase.handle]
        · cases ho'
        · cases ho'
        · obtain rfl := Option.some.inj ho'
          exact (hs.held o hhandle).trans hlock
        · cases ho'
        · cases ha
      · rw [h.no_other hp hhandle hlock hq hw] at heq
        cases heq
    · cases hact
  | giveUp =>
    dsimp only [Server.act] at hact
    split at hact
    · next o hphase =>
      obtain rfl := Option.some.inj hact
      exact h.change hp (fun q hq => Locks.frame_close hq) hsame
        (hs.close (by rw [hphase]; rfl)) fun ho => .inl ⟨ho, rfl⟩
    · cases hact
  | fork child =>
    dsimp only [Server.act] at hact
    split at hact
    · next hguard =>
      obtain rfl := Option.some.inj hact
      exact h.fork hp hguard.1 (Option.isNone_iff_eq_none.mp hguard.2)
    · cases hact
  | drop =>
    dsimp only [Server.act] at hact
    split at hact
    · next o hfd =>
      split at hact
      · next hguard =>
        obtain rfl := Option.some.inj hact
        exact h.change hp (fun q hq => Locks.frame_close hq) hsame
          (hs.dropFd hfd hguard.1 hguard.2) fun ho => by
            rw [show ({ pr with fd := none } : Process).owner = pr.owner from rfl, hguard.2] at ho
            cases ho
      · cases hact
    · cases hact
  | exit =>
    dsimp only [Server.act] at hact
    obtain rfl := Option.some.inj hact
    exact h.exit p
  | probeOpen =>
    dsimp only [Server.act] at hact
    split at hact
    · next hguard =>
      obtain rfl := Option.some.inj hact
      exact h.change hp (fun q hq => Locks.frame_openFor hq) hsame
        (hs.openFor hguard rfl rfl fun ha => by cases ha)
        fun ho => .inl ⟨ho, rfl⟩
    · cases hact
  | probeLock =>
    dsimp only [Server.act] at hact
    split at hact
    · next o hphase =>
      have hhandle : pr.phase.handle = some o := by rw [hphase]; rfl
      split at hact
      · next locks htry =>
        obtain rfl := Option.some.inj hact
        exact h.change hp (fun q hq => Locks.frame_tryLock (hother hhandle hq) htry) hsame
          (hs.lock hhandle htry rfl rfl fun ha => by cases ha) fun ho => .inl ⟨ho, rfl⟩
      · obtain rfl := Option.some.inj hact
        exact h.change hp (fun q _ => .refl) hsame
          (hs.phase (by rw [hphase]; rfl) (by rw [hphase]; rfl) fun ha => by cases ha)
          fun ho => .inl ⟨ho, rfl⟩
    · cases hact
  | probeAnswer =>
    dsimp only [Server.act] at hact
    split at hact
    · next o hphase =>
      obtain rfl := Option.some.inj hact
      exact h.change hp (fun q hq => Locks.frame_close hq) hsame
        (hs.close (by rw [hphase]; rfl)) fun ho => .inl ⟨ho, rfl⟩
    · next o hphase =>
      obtain rfl := Option.some.inj hact
      exact h.change hp (fun q hq => Locks.frame_close hq) hsame
        (hs.close (by rw [hphase]; rfl)) fun ho => .inl ⟨ho, rfl⟩
    · cases hact

lemma Inv.step {w w' : World} (h : Inv w) {a : ℕ × Action} (hstep : step w a = some w') :
    Inv w' := by
  unfold Server.step at hstep
  split at hstep
  · next hp =>
    split at hstep
    · obtain rfl := Option.some.inj hstep
      exact h.start hp
    · cases hstep
  · next pr hp => exact h.act hp hstep

lemma inv_initial (file : Option ℕ) : Inv (World.initial file) where
  sound _ _ h := by cases h
  dead p _ _ := Finset.notMem_empty p
  apart _ _ _ _ _ h := by cases h

/-- What is reached from the time before any process has started. -/
def Reached (w : World) : Prop := ∃ file as, Run step anyStep (World.initial file) as w

lemma Reached.inv {w : World} (h : Reached w) : Inv w := by
  obtain ⟨file, as, hrun⟩ := h
  exact hrun.invariant (fun hw _ hstep => hw.step hstep) (inv_initial file)

/-! ## One server -/

/-- A lock that somebody has is one of a process that lives. -/
lemma Inv.exists_of_lock {w : World} (h : Inv w) {o : ℕ} {k : LockKind}
    (hlock : w.locks.lock o = some k) : ∃ q pr, w.procs q = some pr ∧ pr.Uses o := by
  have hholders : (w.locks.holders o).Nonempty := by
    by_contra hempty
    rw [w.locks.unlocked o (Finset.not_nonempty_iff_eq_empty.mp hempty)] at hlock
    cases hlock
  obtain ⟨q, hq⟩ := hholders
  cases hproc : w.procs q with
  | none => exact absurd hq (h.dead q o hproc)
  | some pr => exact ⟨q, pr, hproc, ((h.sound q pr hproc).mem o).mp hq⟩

/-- What a process is about to lock is not what another one, or itself, keeps. -/
lemma Inv.differs {w : World} (h : Inv w) {p q o o' : ℕ} {pr pr' : Process}
    (hp : w.procs p = some pr) (hq : w.procs q = some pr') (hfd : pr.fd = some o)
    (hhandle : pr'.phase.handle = some o') : o ≠ o' := by
  rintro rfl
  have hs := h.sound p pr hp
  by_cases hpq : q = p
  · subst hpq
    obtain rfl : pr = pr' := Option.some.inj (hp.symm.trans hq)
    exact hs.differ o hfd hhandle
  · -- the description of `q` is its own
    have hmem := (hs.mem o).mpr (.inl hfd)
    rw [(h.sound q pr' hq).alone o hhandle, Finset.mem_singleton] at hmem
    exact hpq hmem.symm

lemma Phase.exists_handle {ph : Phase} {k : LockKind} (h : ph.lock = some k) :
    ∃ o, ph.handle = some o := by
  cases ph with
  | locked o | truncated o | probed o => exact ⟨o, rfl⟩
  | _ => cases h

lemma acquireLock_iff {w : World} {q o : ℕ} {pr : Process} (hq : w.procs q = some pr)
    (hphase : pr.phase = .opened o) :
    (∃ w', step w (q, .acquireLock) = some w' ∧
      w'.procs q = some { pr with phase := .locked o }) ↔
    (w.locks.tryLock o .exclusive).isSome = true := by
  have hstep : step w (q, .acquireLock) = act w q pr .acquireLock := by
    unfold step
    rw [hq]
  rw [hstep]
  dsimp only [act]
  rw [hphase]
  dsimp only
  cases w.locks.tryLock o .exclusive with
  | none => simp [World.put]
  | some locks => simp [World.put]

/-- A step says something only when a process gives up or has looked for a server. -/
lemma step_answers {w w' : World} {q : ℕ} {a : Action} (hstep : step w (q, a) = some w') :
    w'.answers = w.answers ∨ ∃ pr o, w.procs q = some pr ∧
      (pr.phase = .refused o ∧ w'.answers = w.answers ++ [(q, .alreadyRunning w.file)] ∨
        pr.phase = .probed o ∧ w'.answers = w.answers ++ [(q, .notRunning)] ∨
        pr.phase = .blocked o ∧ w'.answers = w.answers ++ [(q, .runs w.file)]) := by
  unfold step at hstep
  split at hstep
  · split at hstep
    · obtain rfl := Option.some.inj hstep
      exact .inl rfl
    · cases hstep
  · next pr hq =>
    cases a with
    | giveUp =>
      dsimp only [act] at hstep
      split at hstep
      · next o hphase =>
        obtain rfl := Option.some.inj hstep
        exact .inr ⟨pr, o, hq, .inl ⟨hphase, rfl⟩⟩
      · cases hstep
    | probeAnswer =>
      dsimp only [act] at hstep
      split at hstep
      · next o hphase =>
        obtain rfl := Option.some.inj hstep
        exact .inr ⟨pr, o, hq, .inr (.inl ⟨hphase, rfl⟩)⟩
      · next o hphase =>
        obtain rfl := Option.some.inj hstep
        exact .inr ⟨pr, o, hq, .inr (.inr ⟨hphase, rfl⟩)⟩
      · cases hstep
    | _ =>
      left
      simp only [act] at hstep
      repeat' split at hstep
      all_goals first
        | cases hstep; done
        | (obtain rfl := Option.some.inj hstep; rfl)

/-- A process looks whether a server runs, and one starts before it has asked for its lock. -/
def looksBefore : List (ℕ × Action) :=
  [(2, .start), (2, .probeOpen), (1, .start), (1, .acquireOpen), (1, .acquireLock), (1, .truncate),
    (1, .write), (2, .probeLock)]

/-- A server that starts is let in exactly when no other process has the lock of one that runs or
ran, takes it, or looks whether one runs. -/
theorem acquires_iff {w : World} (h : Reached w) {q o : ℕ} {pr : Process}
    (hq : w.procs q = some pr) (hphase : pr.phase = .opened o) :
    (∃ w', step w (q, .acquireLock) = some w' ∧
      w'.procs q = some { pr with phase := .locked o }) ↔
    ∀ r pr', r ≠ q → w.procs r = some pr' → pr'.fd = none ∧ pr'.phase.lock = none := by
  have hinv := h.inv
  have hs := hinv.sound q pr hq
  have hhandle : pr.phase.handle = some o := by rw [hphase]; rfl
  have hfd : pr.fd = none := hs.none_kept (by rw [hphase]; rfl)
  rw [acquireLock_iff hq hphase, Locks.tryLock_isSome_iff]
  constructor
  · rintro ⟨-, hfree⟩ r pr' hne hr
    rw [← Bool.not_eq_true, Locks.blocked_iff] at hfree
    have hs' := hinv.sound r pr' hr
    have hother : ∀ o', pr'.Uses o' → o' ≠ o := by
      rintro o' huses rfl
      have hmem := (hs'.mem o').mpr huses
      rw [hs.alone o' hhandle, Finset.mem_singleton] at hmem
      exact hne hmem
    constructor
    · by_contra hsome
      obtain ⟨o', ho'⟩ := Option.ne_none_iff_exists'.mp hsome
      exact hfree ⟨o', hother o' (.inl ho'), .inl (hs'.kept o' ho')⟩
    · by_contra hsome
      obtain ⟨k, hk⟩ := Option.ne_none_iff_exists'.mp hsome
      obtain ⟨o', ho'⟩ := Phase.exists_handle hk
      refine hfree ⟨o', hother o' (.inr ho'), ?_⟩
      rw [hs'.held o' ho', hk]
      cases k with
      | shared => exact .inr ⟨rfl, rfl⟩
      | exclusive => exact .inl rfl
  · intro hall
    refine ⟨⟨q, (hs.mem o).mpr (.inr hhandle)⟩, ?_⟩
    rw [← Bool.not_eq_true, Locks.blocked_iff]
    rintro ⟨o', hne, hlock⟩
    obtain ⟨k, hk⟩ : ∃ k, w.locks.lock o' = some k := by
      rcases hlock with hlock | ⟨-, hlock⟩
      · exact ⟨_, hlock⟩
      · exact ⟨_, hlock⟩
    obtain ⟨r, pr', hr, huses⟩ := hinv.exists_of_lock hk
    by_cases hrq : r = q
    · subst hrq
      obtain rfl : pr = pr' := Option.some.inj (hq.symm.trans hr)
      rcases huses with huses | huses
      · rw [hfd] at huses
        cases huses
      · exact hne (Option.some.inj (huses.symm.trans hhandle))
    · obtain ⟨hnone, hfree⟩ := hall r pr' hrq hr
      rcases huses with huses | huses
      · rw [hnone] at huses
        cases huses
      · rw [(hinv.sound r pr' hr).held o' huses, hfree] at hk
        cases hk

/-- A server starts while a process looks whether one runs. -/
def startsDuring : List (ℕ × Action) :=
  [(2, .start), (2, .probeOpen), (2, .probeLock), (1, .start), (1, .acquireOpen)]

/-- A server that has opened the lock file. -/
def opening : Process := { fd := none, phase := .opened 1, owner := false }

/-- Such a look keeps the server from starting. -/
theorem acquires_iff_probe : ∃ w, Run step anyStep (World.initial none) startsDuring w ∧
    ¬ ∃ w', step w (1, .acquireLock) = some w' ∧
      w'.procs 1 = some { opening with phase := .locked 1 } := by
  refine ⟨_, run_of_exec rfl, fun h => ?_⟩
  have hopening : ∀ w, Run step anyStep (World.initial none) startsDuring w →
      w.procs 1 = some opening → (∃ w', step w (1, .acquireLock) = some w' ∧
        w'.procs 1 = some { opening with phase := .locked 1 }) →
      ∀ r pr', r ≠ 1 → w.procs r = some pr' → pr'.fd = none ∧ pr'.phase.lock = none :=
    fun w hrun hq => (acquires_iff ⟨none, startsDuring, hrun⟩ hq rfl).mp
  exact absurd (hopening _ (run_of_exec rfl) rfl h 2 _ (by decide) rfl).2 (by decide)

end Habeny.Server
