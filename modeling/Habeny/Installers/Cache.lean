import Habeny.Lib.Text
import Habeny.Lib.Transition
import Mathlib.Logic.Function.Basic

/-!
# The cache of downloaded packages

`ensure_cached` looks for a file in the cache and runs a command that downloads it when it is
missing or empty.  The command writes to the file in the cache as it goes.  The lock is one for
each process, so two processes may look for a file and download it at the same time; and what a
download has written stays where it fails or is killed.

Every access to the file is a step of its own here.  `returned_complete` says when each path that
is returned is one of a complete package, and no file has two downloads.
-/

namespace Habeny.Installers

open Habeny.Lib

/-! ## Threads, processes and downloads -/

/-- A run of the download command: the file, what it is to write there, and how much of this it
has written. -/
structure Download where
  name : Text
  body : List UInt8
  written : ℕ
  deriving DecidableEq

/-- Where a thread is in `ensure_cached`. -/
inductive Pc where
  | idle
  /-- waits for the lock -/
  | calling (name : Text)
  /-- is to see whether the file exists -/
  | locked (name : Text)
  /-- is to see how large it is -/
  | seen (name : Text)
  /-- is to run the command -/
  | missed (name : Text)
  | downloading (d : Download)
  /-- is to see whether the file exists now -/
  | downloaded (name : Text)
  /-- has released the lock, and is to return -/
  | leaving (name : Text)
  deriving DecidableEq

/-- How a call ended; a path is returned with the file that it refers to at that moment. -/
inductive Result where
  | returned (name : Text) (content : Option (List UInt8))
  | raised (text : Text)
  deriving DecidableEq

/-- The files, the threads, which thread holds the lock of a process, which processes are alive,
all packages for which a download was started, and the results of the calls. -/
structure System where
  files : Text → Option (List UInt8)
  pc : ℕ → Pc
  holder : ℕ → Option ℕ
  alive : ℕ → Bool
  served : List (Text × List UInt8)
  results : List Result

inductive Action where
  | call (t : ℕ) (name : Text)
  /-- The thread takes its next step; a download that it starts is to write `body`. -/
  | advance (t : ℕ) (body : List UInt8)
  /-- The download of a thread writes some more bytes. -/
  | write (t n : ℕ)
  | finish (t : ℕ)
  /-- The command of a thread fails, is killed or times out, with these texts. -/
  | fail (t : ℕ) (error stderr : Text)
  | kill (process : ℕ)

/-- Write at an offset, over what is there. -/
def writeAt (content : List UInt8) (offset : ℕ) (chunk : List UInt8) : List UInt8 :=
  content.take offset ++ List.replicate (offset - content.length) 0 ++ chunk ++
    content.drop (offset + chunk.length)

/-- The downloads of a process that is killed go on. -/
def Pc.orphaned : Pc → Pc
  | .downloading d => .downloading d
  | _ => .idle

namespace System

/-- Nothing is in the cache. -/
def start : System where
  files := fun _ => none
  pc := fun _ => .idle
  holder := fun _ => none
  alive := fun _ => true
  served := []
  results := []

def goto (s : System) (t : ℕ) (pc : Pc) : System := { s with pc := Function.update s.pc t pc }

/-- Release the lock of the process of a thread. -/
def release (process : ℕ → ℕ) (s : System) (t : ℕ) : System :=
  { s with holder := Function.update s.holder (process t) none }

/-- The call of a thread raises an exception, with the lock released. -/
def raise (process : ℕ → ℕ) (s : System) (t : ℕ) (text : Text) : System :=
  { (s.release process t).goto t .idle with results := s.results ++ [.raised text] }

def noSuchFile (name : Text) : Text :=
  "[Errno 2] No such file or directory: '".toList ++ name ++ "'".toList

def notDownloaded (name error stderr : Text) : Text :=
  "Failed to download ".toList ++ name ++ ": ".toList ++ if error = [] then stderr else error

def notFound (name : Text) : Text :=
  "Download command succeeded but ".toList ++ name ++ " not found".toList

/-- The next step of a thread in `ensure_cached`, where `process` is the process of each. -/
def advance (process : ℕ → ℕ) (s : System) (t : ℕ) (body : List UInt8) : Option System :=
  match s.pc t with
  | .idle | .downloading _ => none
  | .calling name =>
    if s.holder (process t) = none then
      some { s.goto t (.locked name) with holder := Function.update s.holder (process t) (some t) }
    else none
  | .locked name =>
    match s.files name with
    | some _ => some (s.goto t (.seen name))
    | none => some (s.goto t (.missed name))
  | .seen name =>
    match s.files name with
    | some (_ :: _) => some ((s.release process t).goto t (.leaving name))
    | some [] => some (s.goto t (.missed name))
    | none => some (s.raise process t (noSuchFile name))
  | .missed name =>
    some { s.goto t (.downloading ⟨name, body, 0⟩) with
      files := Function.update s.files name (some [])
      served := (name, body) :: s.served }
  | .downloaded name =>
    match s.files name with
    | some _ => some ((s.release process t).goto t (.leaving name))
    | none => some (s.raise process t (notFound name))
  | .leaving name =>
    some { s.goto t .idle with results := s.results ++ [.returned name (s.files name)] }

/-- Kill a process. -/
def kill (process : ℕ → ℕ) (s : System) (p : ℕ) : System :=
  { s with
    pc := fun t => if process t = p then (s.pc t).orphaned else s.pc t
    alive := Function.update s.alive p false }

/-- Where threads and downloads get to.  The command ends with success when it has written
everything; nobody reads the result of one whose process was killed. -/
def step (process : ℕ → ℕ) (s : System) : Action → Option System
  | .call t name =>
    if s.alive (process t) = true ∧ s.pc t = .idle then some (s.goto t (.calling name)) else none
  | .advance t body => if s.alive (process t) = true then s.advance process t body else none
  | .write t n =>
    match s.pc t with
    | .downloading d =>
      let chunk := (d.body.drop d.written).take n
      some { s.goto t (.downloading { d with written := d.written + chunk.length }) with
        files := Function.update s.files d.name
          (some (writeAt ((s.files d.name).getD []) d.written chunk)) }
    | _ => none
  | .finish t =>
    match s.pc t with
    | .downloading d =>
      if d.written = d.body.length then
        some (s.goto t (if s.alive (process t) = true then .downloaded d.name else .idle))
      else none
    | _ => none
  | .fail t error stderr =>
    match s.pc t with
    | .downloading d =>
      some (if s.alive (process t) = true then s.raise process t (notDownloaded d.name error stderr)
        else s.goto t .idle)
    | .missed name =>
      if s.alive (process t) = true then some (s.raise process t (notDownloaded name error stderr))
      else none
    | _ => none
  | .kill p => some (s.kill process p)

end System

/-! ## What should hold -/

/-- What a file holds is all of a package that a download of it was to write. -/
def System.Complete (s : System) (name : Text) (content : Option (List UInt8)) : Prop :=
  ∃ body, (name, body) ∈ s.served ∧ content = some body

/-- Every path was returned with a complete file, and no file has two downloads. -/
structure Safe (s : System) : Prop where
  returned : ∀ name content, .returned name content ∈ s.results → s.Complete name content
  single : ∀ t t' d d', s.pc t = .downloading d → s.pc t' = .downloading d' → d.name = d'.name →
    t = t'

/-- The file that a call has missed, or has found or downloaded. -/
def Pc.file : Pc → Option Text
  | .missed name | .downloaded name | .leaving name => some name
  | .downloading d => some d.name
  | _ => none

/-- No other process has missed a file and is to get past its download, and no path of the file is
about to be returned. -/
def System.Unfetched (process : ℕ → ℕ) (s : System) (t : ℕ) (name : Text) : Prop :=
  ∀ t', (s.pc t').file = some name → process t' = process t ∧ s.pc t' ≠ .leaving name

/-- A file is missed only while no other process fetches it, and is taken for complete only while
no other process downloads it; and a download fails with nothing written, or everything. -/
def Undisturbed (process : ℕ → ℕ) (s : System) : Action → Prop
  | .advance t _ =>
    match s.pc t with
    | .locked name => s.files name = none → s.Unfetched process t name
    | .seen name =>
      match s.files name with
      | some (_ :: _) => ∀ t' d, process t' ≠ process t → s.pc t' = .downloading d → d.name ≠ name
      | _ => s.Unfetched process t name
    | _ => True
  | .fail t _ _ =>
    ∀ d, s.pc t = .downloading d → d.written = 0 ∨ d.written = d.body.length
  | _ => True

/-! ## The lock of a process -/

section Lock

variable {process : ℕ → ℕ} {s : System} {t : ℕ} {pc : Pc}

/-- The thread is between taking the lock and releasing it. -/
def Pc.holds : Pc → Bool
  | .idle | .calling _ | .leaving _ => false
  | _ => true

/-- The threads that hold the lock of a process that is alive are its holders. -/
def LockSound (process : ℕ → ℕ) (s : System) : Prop :=
  ∀ t, (s.pc t).holds = true → s.alive (process t) = true → s.holder (process t) = some t

@[simp] lemma goto_pc (s : System) (t : ℕ) (pc : Pc) :
    (s.goto t pc).pc = Function.update s.pc t pc := rfl

lemma LockSound.goto (h : LockSound process s)
    (hpc : pc.holds = true → (s.pc t).holds = true) : LockSound process (s.goto t pc) := by
  intro t' hholds halive
  by_cases ht : t' = t
  · subst ht
    rw [goto_pc, Function.update_self] at hholds
    exact h t' (hpc hholds) halive
  · rw [goto_pc, Function.update_of_ne ht] at hholds
    exact h t' hholds halive

/-- Of the threads of one process that is alive, one at most is past the lock. -/
lemma LockSound.eq_of_process {t' : ℕ} (h : LockSound process s)
    (hprocess : process t' = process t) (halive : s.alive (process t) = true)
    (ht : (s.pc t).holds = true) (ht' : (s.pc t').holds = true) : t' = t := by
  have hholder := h t ht halive
  have hholder' := h t' ht' (hprocess ▸ halive)
  rw [hprocess, hholder] at hholder'
  exact (Option.some.inj hholder').symm

lemma LockSound.acquire {name : Text} (h : LockSound process s)
    (hfree : s.holder (process t) = none) :
    LockSound process { s.goto t (.locked name) with
      holder := Function.update s.holder (process t) (some t) } := by
  intro t' hholds halive
  by_cases ht : t' = t
  · subst ht
    exact Function.update_self ..
  · change (Function.update s.pc t _ t').holds = true at hholds
    rw [Function.update_of_ne ht] at hholds
    have hholder := h t' hholds halive
    have hprocess : process t' ≠ process t := by
      intro heq
      rw [heq, hfree] at hholder
      cases hholder
    exact (Function.update_of_ne hprocess ..).trans hholder

lemma LockSound.release (h : LockSound process s) (ht : (s.pc t).holds = true)
    (halive : s.alive (process t) = true) (hpc : pc.holds = false) :
    LockSound process ((s.release process t).goto t pc) := by
  intro t' hholds halive'
  by_cases heq : t' = t
  · subst heq
    rw [goto_pc, Function.update_self, hpc] at hholds
    cases hholds
  · rw [goto_pc, Function.update_of_ne heq] at hholds
    have hprocess : process t' ≠ process t :=
      fun hprocess => heq (h.eq_of_process hprocess halive ht hholds)
    exact (Function.update_of_ne hprocess ..).trans (h t' hholds halive')

lemma LockSound.kill (h : LockSound process s) (p : ℕ) : LockSound process (s.kill process p) := by
  intro t hholds halive
  change Function.update s.alive p false (process t) = true at halive
  by_cases hp : process t = p
  · rw [hp, Function.update_self] at halive
    cases halive
  · rw [Function.update_of_ne hp] at halive
    simp only [System.kill, if_neg hp] at hholds
    exact h t hholds halive

end Lock

/-! ## What a step keeps -/

/-- The file is missing or empty. -/
def System.Lacks (s : System) (name : Text) : Prop := s.files name = none ∨ s.files name = some []

/-- No download writes to the file. -/
def System.Still (s : System) (name : Text) : Prop :=
  ∀ t d, s.pc t = .downloading d → d.name ≠ name

/-- The call is to start a download, or waits for it. -/
def Pc.changes : Pc → Bool
  | .missed _ | .downloading _ => true
  | _ => false

/-- The file of a call is as the call takes it to be. -/
def Pc.Fits (s : System) : Pc → Prop
  | .missed name => s.Lacks name
  | .downloading d => s.files d.name = some (d.body.take d.written) ∧ d.written ≤ d.body.length ∧
      (d.name, d.body) ∈ s.served
  | .downloaded name | .leaving name => s.Complete name (s.files name)
  | _ => True

/-- A call that is to change a file is the only one at it, and a file to which no download writes
is complete, unless it is missing or empty. -/
structure Sound (process : ℕ → ℕ) (s : System) : Prop where
  lock : LockSound process s
  fits : ∀ t, (s.pc t).Fits s
  alone : ∀ t t', (s.pc t).changes = true → (s.pc t').file = (s.pc t).file → t' = t
  settled : ∀ name, s.Still name → s.Lacks name ∨ s.Complete name (s.files name)
  returned : ∀ name content, .returned name content ∈ s.results → s.Complete name content

section Sound

variable {process : ℕ → ℕ} {s s' : System} {t : ℕ} {name : Text} {pc : Pc}

lemma sound_start : Sound process .start where
  lock := fun _ h => by cases h
  fits := fun _ => trivial
  alone := fun _ _ h => by cases h
  settled := fun _ _ => .inl (.inl rfl)
  returned := fun _ _ h => absurd h List.not_mem_nil

lemma System.Complete.mono {content : Option (List UInt8)} (h : s.Complete name content)
    (hserved : s.served ⊆ s'.served) : s'.Complete name content := by
  obtain ⟨body, hbody, hcontent⟩ := h
  exact ⟨body, hserved hbody, hcontent⟩

/-- What a call takes its file to be stays so while the file does. -/
lemma Pc.Fits.mono (h : pc.Fits s) (hserved : s.served ⊆ s'.served)
    (hfiles : ∀ name, pc.file = some name → s'.files name = s.files name) : pc.Fits s' := by
  cases pc with
  | missed name =>
    have hsame := hfiles name rfl
    rw [Pc.Fits, System.Lacks, hsame]
    exact h
  | downloading d =>
    have hsame := hfiles d.name rfl
    rw [Pc.Fits, hsame]
    exact ⟨h.1, h.2.1, hserved h.2.2⟩
  | downloaded name =>
    have hsame := hfiles name rfl
    rw [Pc.Fits, hsame]
    exact System.Complete.mono h hserved
  | leaving name =>
    have hsame := hfiles name rfl
    rw [Pc.Fits, hsame]
    exact System.Complete.mono h hserved
  | idle | calling _ | locked _ | seen _ => trivial

lemma Pc.changes_of_downloading {d : Download} (h : pc = .downloading d) :
    pc.changes = true ∧ pc.file = some d.name := by
  subst h
  exact ⟨rfl, rfl⟩

lemma Pc.exists_file_of_changes (h : pc.changes = true) : ∃ name, pc.file = some name := by
  cases pc with
  | missed name => exact ⟨name, rfl⟩
  | downloading d => exact ⟨d.name, rfl⟩
  | idle | calling _ | locked _ | seen _ | downloaded _ | leaving _ => cases h

/-- **What one thread may do**: change the file that is its own to change, and go on to where the
file fits, and where no other call is at a file that one of them is to change. -/
lemma Sound.goto (h : Sound process s) (hpc : s'.pc = Function.update s.pc t pc)
    (hlock : LockSound process s') (hserved : s.served ⊆ s'.served)
    (hfiles : ∀ name, s'.files name = s.files name ∨
      (s.pc t).changes = true ∧ (s.pc t).file = some name)
    (hfits : pc.Fits s')
    (halone : ∀ t' name, t' ≠ t → pc.file = some name → (s.pc t').file = some name →
      pc.changes = false ∧ (s.pc t').changes = false)
    (hsettled : ∀ name, (s.pc t).changes = true → (s.pc t).file = some name → s'.Still name →
      s'.Lacks name ∨ s'.Complete name (s'.files name))
    (hreturned : ∀ name content, .returned name content ∈ s'.results →
      s'.Complete name content) : Sound process s' := by
  have hself : s'.pc t = pc := by rw [hpc, Function.update_self]
  have hother : ∀ t', t' ≠ t → s'.pc t' = s.pc t' := fun t' ht => by
    rw [hpc, Function.update_of_ne ht]
  refine ⟨hlock, fun t' => ?_, fun t' t'' hchanges hfile => ?_, fun name hstill => ?_, hreturned⟩
  · by_cases ht : t' = t
    · rw [ht, hself]
      exact hfits
    · rw [hother t' ht]
      refine (h.fits t').mono hserved fun name hfile => ?_
      rcases hfiles name with hsame | ⟨hmine, hname⟩
      · exact hsame
      · exact absurd (h.alone t t' hmine (hfile.trans hname.symm)) ht
  · obtain ⟨name, hname⟩ := Pc.exists_file_of_changes hchanges
    rw [hname] at hfile
    by_cases ht : t' = t <;> by_cases ht' : t'' = t
    · rw [ht, ht']
    · rw [ht, hself] at hname hchanges
      rw [hother t'' ht'] at hfile
      rw [(halone t'' name ht' hname hfile).1] at hchanges
      cases hchanges
    · rw [ht', hself] at hfile
      rw [hother t' ht] at hname hchanges
      rw [(halone t' name ht hfile hname).2] at hchanges
      cases hchanges
    · rw [hother t' ht] at hname hchanges
      rw [hother t'' ht'] at hfile
      exact h.alone t' t'' hchanges (hfile.trans hname.symm)
  · by_cases hmine : (s.pc t).changes = true ∧ (s.pc t).file = some name
    · exact hsettled name hmine.1 hmine.2 hstill
    · have hsame : s'.files name = s.files name := (hfiles name).resolve_right hmine
      have hbefore : s.Still name := by
        intro t' d hd hname
        by_cases ht : t' = t
        · obtain ⟨hchanges, hfile⟩ := Pc.changes_of_downloading (ht ▸ hd)
          exact hmine ⟨hchanges, hname ▸ hfile⟩
        · exact hstill t' d ((hother t' ht).trans hd) hname
      rw [System.Lacks, hsame]
      exact (h.settled name hbefore).imp_right fun hc => hc.mono hserved

/-- A thread that is at no file of its own goes on to where it is at none, or returns. -/
lemma Sound.quiet (h : Sound process s) (hpc : s'.pc = Function.update s.pc t pc)
    (hlock : LockSound process s') (hserved : s'.served = s.served) (hfiles : s'.files = s.files)
    (hbefore : (s.pc t).changes = false) (hfile : pc.file = none)
    (hreturned : ∀ name content, .returned name content ∈ s'.results →
      s.Complete name content) : Sound process s' := by
  have hsubset : s.served ⊆ s'.served := by rw [hserved]; exact List.Subset.refl _
  refine h.goto hpc hlock hsubset (fun name => .inl ?_) ?_ ?_ ?_ ?_
  · rw [hfiles]
  · cases pc with
    | idle | calling _ | locked _ | seen _ => trivial
    | missed _ | downloading _ | downloaded _ | leaving _ => cases hfile
  · intro t' name _ hname
    rw [hfile] at hname
    cases hname
  · intro name hchanges
    rw [hbefore] at hchanges
    cases hchanges
  · exact fun name content hr => (hreturned name content hr).mono hsubset

/-- A call misses a file that no other one fetches. -/
lemma Sound.miss (h : Sound process s) (halive : s.alive (process t) = true)
    (hholds : (s.pc t).holds = true) (hbefore : (s.pc t).file = none) (hlacks : s.Lacks name)
    (hfree : s.Unfetched process t name) : Sound process (s.goto t (.missed name)) := by
  refine h.goto rfl (h.lock.goto fun _ => hholds) (List.Subset.refl _) (fun _ => .inl rfl) hlacks
    ?_ ?_ h.returned
  · rintro t' name ht hname hfile
    cases hname
    obtain ⟨hprocess, hleaving⟩ := hfree t' hfile
    refine absurd (h.lock.eq_of_process hprocess halive hholds ?_) ht
    cases hs : s.pc t' <;> rw [hs] at hfile hleaving <;> simp_all [Pc.file, Pc.holds]
  · intro name _ hfile
    rw [hbefore] at hfile
    cases hfile

/-- A call leaves with a file that is complete, and that no call is to change. -/
lemma Sound.leave (h : Sound process s) (hholds : (s.pc t).holds = true)
    (halive : s.alive (process t) = true) (hbefore : (s.pc t).changes = false)
    (hcomplete : s.Complete name (s.files name))
    (hothers : ∀ t', (s.pc t').file = some name → (s.pc t').changes = false) :
    Sound process ((s.release process t).goto t (.leaving name)) := by
  refine h.goto rfl (h.lock.release hholds halive rfl) (List.Subset.refl _) (fun _ => .inl rfl)
    hcomplete ?_ ?_ h.returned
  · rintro t' name - hname hfile
    cases hname
    exact ⟨rfl, hothers t' hfile⟩
  · intro name hchanges
    rw [hbefore] at hchanges
    cases hchanges

lemma Sound.raise (h : Sound process s) (hholds : (s.pc t).holds = true)
    (halive : s.alive (process t) = true)
    (hsettled : ∀ name, (s.pc t).changes = true → (s.pc t).file = some name →
      s.Lacks name ∨ s.Complete name (s.files name)) (text : Text) :
    Sound process (s.raise process t text) := by
  have hlock : LockSound process ((s.release process t).goto t .idle) :=
    h.lock.release hholds halive rfl
  refine h.goto rfl hlock (List.Subset.refl _) (fun _ => .inl rfl) trivial ?_ ?_ ?_
  · rintro t' name - hname
    cases hname
  · exact fun name hchanges hfile _ => hsettled name hchanges hfile
  · intro name content hr
    rcases List.mem_append.mp hr with hr | hr
    · exact h.returned name content hr
    · cases List.mem_singleton.mp hr

/-- No call but that of a download is at its file. -/
lemma Sound.others_not_at (h : Sound process s) (hchanges : (s.pc t).changes = true)
    (hfile : (s.pc t).file = some name) {t' : ℕ} (ht : t' ≠ t) : (s.pc t').file ≠ some name :=
  fun hfile' => ht (h.alone t t' hchanges (hfile'.trans hfile.symm))

/-- The command opens the file, which is then empty. -/
lemma Sound.opens (h : Sound process s) (hpc : s.pc t = .missed name) (body : List UInt8) :
    Sound process { s.goto t (.downloading ⟨name, body, 0⟩) with
      files := Function.update s.files name (some [])
      served := (name, body) :: s.served } := by
  have hchanges : (s.pc t).changes = true := by rw [hpc]; rfl
  have hfile : (s.pc t).file = some name := by rw [hpc]; rfl
  refine h.goto rfl (h.lock.goto fun _ => by rw [hpc]; rfl) (List.subset_cons_self ..)
    (fun name' => ?_) ?_ ?_ ?_ ?_
  · by_cases hname : name' = name
    · exact .inr ⟨hchanges, hname ▸ hfile⟩
    · exact .inl (Function.update_of_ne hname ..)
  · exact ⟨Function.update_self .., Nat.zero_le _, List.mem_cons_self⟩
  · rintro t' name' ht hname hfile'
    cases hname
    exact absurd hfile' (h.others_not_at hchanges hfile ht)
  · intro name' _ hname hstill
    have heq : name = name' := Option.some.inj (hfile.symm.trans hname)
    exact absurd heq (hstill t _ (Function.update_self ..))
  · exact fun name content hr => (h.returned name content hr).mono (List.subset_cons_self ..)

/-- Writing on at the end of what was written. -/
lemma writeAt_take (body : List UInt8) {k : ℕ} (hk : k ≤ body.length) {chunk : List UInt8}
    (hchunk : chunk <+: body.drop k) :
    writeAt (body.take k) k chunk = body.take (k + chunk.length) := by
  have hlength : (body.take k).length = k := List.length_take_of_le hk
  have hrest : (body.take k).drop (k + chunk.length) = [] :=
    List.drop_eq_nil_of_le (by rw [hlength]; exact Nat.le_add_right ..)
  rw [writeAt, hlength, Nat.sub_self, List.replicate_zero, List.append_nil,
    List.take_of_length_le hlength.le, hrest, List.append_nil, List.take_add,
    ← List.prefix_iff_eq_take.mp hchunk]

lemma Sound.write (h : Sound process s) {d : Download} (hpc : s.pc t = .downloading d)
    {chunk : List UInt8} (hchunk : chunk <+: d.body.drop d.written) :
    Sound process { s.goto t (.downloading { d with written := d.written + chunk.length }) with
      files := Function.update s.files d.name
        (some (writeAt ((s.files d.name).getD []) d.written chunk)) } := by
  obtain ⟨hchanges, hfile⟩ := Pc.changes_of_downloading hpc
  obtain ⟨hcontent, hwritten, hserved⟩ : (Pc.downloading d).Fits s := hpc ▸ h.fits t
  refine h.goto rfl (h.lock.goto fun _ => by rw [hpc]; rfl) (List.Subset.refl _) (fun name => ?_)
    ?_ ?_ ?_ h.returned
  · by_cases hname : name = d.name
    · exact .inr ⟨hchanges, hname ▸ hfile⟩
    · exact .inl (Function.update_of_ne hname ..)
  · refine ⟨?_, ?_, hserved⟩
    · refine (Function.update_self ..).trans (congrArg some ?_)
      rw [hcontent, Option.getD_some]
      exact writeAt_take d.body hwritten hchunk
    · have hlength := hchunk.length_le
      rw [List.length_drop] at hlength
      change d.written + chunk.length ≤ d.body.length
      omega
  · rintro t' name ht hname hfile'
    cases hname
    exact absurd hfile' (h.others_not_at hchanges hfile ht)
  · intro name _ hname hstill
    have heq : d.name = name := Option.some.inj (hfile.symm.trans hname)
    exact absurd heq (hstill t { d with written := d.written + chunk.length }
      (Function.update_self ..))

/-- What a download leaves that has written nothing, or everything. -/
lemma Sound.left (h : Sound process s) {d : Download} (hpc : s.pc t = .downloading d) :
    (d.written = 0 → s.Lacks d.name) ∧
      (d.written = d.body.length → s.Complete d.name (s.files d.name)) := by
  obtain ⟨hcontent, -, hserved⟩ : (Pc.downloading d).Fits s := hpc ▸ h.fits t
  constructor
  · intro hzero
    rw [hzero, List.take_zero] at hcontent
    exact .inr hcontent
  · intro hall
    rw [hall, List.take_length] at hcontent
    exact ⟨d.body, hserved, hcontent⟩

/-- A download ends, in a process that is alive or not. -/
lemma Sound.finish (h : Sound process s) {d : Download} (hpc : s.pc t = .downloading d)
    (hall : d.written = d.body.length) (hnext : pc = .downloaded d.name ∨ pc = .idle) :
    Sound process (s.goto t pc) := by
  obtain ⟨hchanges, hfile⟩ := Pc.changes_of_downloading hpc
  have hcomplete := (h.left hpc).2 hall
  refine h.goto rfl (h.lock.goto fun _ => by rw [hpc]; rfl) (List.Subset.refl _) (fun _ => .inl rfl)
    ?_ ?_ ?_ h.returned
  · rcases hnext with rfl | rfl
    · exact hcomplete
    · trivial
  · rintro t' name ht hname hfile'
    rcases hnext with rfl | rfl
    · cases hname
      exact absurd hfile' (h.others_not_at hchanges hfile ht)
    · cases hname
  · intro name _ hname _
    have heq : d.name = name := Option.some.inj (hfile.symm.trans hname)
    exact .inr (heq ▸ hcomplete)

/-- The download of a process that is not alive fails. -/
lemma Sound.abandon (h : Sound process s) {d : Download} (hpc : s.pc t = .downloading d)
    (hleft : d.written = 0 ∨ d.written = d.body.length) : Sound process (s.goto t .idle) := by
  obtain ⟨hchanges, hfile⟩ := Pc.changes_of_downloading hpc
  refine h.goto rfl (h.lock.goto fun h => by cases h) (List.Subset.refl _) (fun _ => .inl rfl)
    trivial ?_ ?_ h.returned
  · rintro t' name - hname
    cases hname
  · intro name _ hname _
    have heq : d.name = name := Option.some.inj (hfile.symm.trans hname)
    exact heq ▸ hleft.imp (h.left hpc).1 (h.left hpc).2

/-- A thread of a process that is killed is gone, but for its download. -/
lemma orphaned_cases (pc : Pc) :
    pc.orphaned = pc ∨ pc.orphaned = .idle ∧ ∀ d, pc ≠ .downloading d := by
  cases pc <;> simp [Pc.orphaned]

lemma kill_cases (process : ℕ → ℕ) (s : System) (p t : ℕ) :
    (s.kill process p).pc t = s.pc t ∨
      (s.kill process p).pc t = .idle ∧ ∀ d, s.pc t ≠ .downloading d := by
  change (if process t = p then (s.pc t).orphaned else s.pc t) = s.pc t ∨
    (if process t = p then (s.pc t).orphaned else s.pc t) = .idle ∧ _
  split_ifs
  · exact orphaned_cases (s.pc t)
  · exact .inl rfl

lemma Sound.kill (h : Sound process s) (p : ℕ) : Sound process (s.kill process p) := by
  refine ⟨h.lock.kill p, fun t => ?_, fun t t' hchanges hfile => ?_, fun name hstill => ?_,
    h.returned⟩
  · rcases kill_cases process s p t with hsame | ⟨hidle, -⟩
    · rw [hsame]
      exact (h.fits t).mono (List.Subset.refl _) fun _ _ => rfl
    · rw [hidle]
      trivial
  · rcases kill_cases process s p t with hsame | ⟨hidle, -⟩
    · rw [hsame] at hchanges hfile
      rcases kill_cases process s p t' with hsame' | ⟨hidle', -⟩
      · rw [hsame'] at hfile
        exact h.alone t t' hchanges hfile
      · obtain ⟨name, hname⟩ := Pc.exists_file_of_changes hchanges
        rw [hidle', hname] at hfile
        cases hfile
    · rw [hidle] at hchanges
      cases hchanges
  · refine h.settled name fun t d hd => ?_
    rcases kill_cases process s p t with hsame | ⟨-, hnot⟩
    · exact hstill t d (hsame.trans hd)
    · exact absurd hd (hnot d)

/-! ## Steps and runs -/

lemma System.Lacks.not_found {b : UInt8} {bs : List UInt8} (h : s.Lacks name) :
    s.files name ≠ some (b :: bs) := by
  intro hcontent
  rcases h with hnone | hempty
  · rw [hcontent] at hnone
    cases hnone
  · rw [hcontent] at hempty
    cases hempty

/-- A call finds a file that is not empty, and that no other process downloads. -/
lemma Sound.found (h : Sound process s) (halive : s.alive (process t) = true)
    (hpc : s.pc t = .seen name) {b : UInt8} {bs : List UInt8}
    (hcontent : s.files name = some (b :: bs))
    (hothers : ∀ t' d, process t' ≠ process t → s.pc t' = .downloading d → d.name ≠ name) :
    Sound process ((s.release process t).goto t (.leaving name)) := by
  have hholds : (s.pc t).holds = true := by rw [hpc]; rfl
  have hstill : s.Still name := by
    intro t' d hd
    by_cases hprocess : process t' = process t
    · have heq := h.lock.eq_of_process hprocess halive hholds (by rw [hd]; rfl)
      rw [← heq, hd] at hpc
      cases hpc
    · exact hothers t' d hprocess hd
  have hcomplete : s.Complete name (s.files name) :=
    (h.settled name hstill).resolve_left fun hlacks => hlacks.not_found hcontent
  refine h.leave hholds halive (by rw [hpc]; rfl) hcomplete fun t' hfile => ?_
  cases hs : s.pc t' with
  | missed n =>
    have hlacks : (Pc.missed n).Fits s := hs ▸ h.fits t'
    rw [hs] at hfile
    cases hfile
    exact absurd hcontent (System.Lacks.not_found hlacks)
  | downloading d =>
    rw [hs] at hfile
    exact absurd (Option.some.inj hfile) (hstill t' d hs)
  | idle | calling _ | locked _ | seen _ | downloaded _ | leaving _ => rfl

/-- A call leaves after its download. -/
lemma Sound.fetched (h : Sound process s) (halive : s.alive (process t) = true)
    (hpc : s.pc t = .downloaded name) :
    Sound process ((s.release process t).goto t (.leaving name)) := by
  have hcomplete : (Pc.downloaded name).Fits s := hpc ▸ h.fits t
  have hchanges : (s.pc t).changes = false := by rw [hpc]; rfl
  refine h.leave (by rw [hpc]; rfl) halive hchanges hcomplete fun t' hfile => ?_
  by_contra hchanges'
  have heq := h.alone t' t (by simpa using hchanges') (by rw [hpc, hfile]; rfl)
  exact hchanges' (heq ▸ hchanges)

lemma Sound.returns (h : Sound process s) (hpc : s.pc t = .leaving name) :
    Sound process { s.goto t .idle with
      results := s.results ++ [.returned name (s.files name)] } := by
  have hcomplete : (Pc.leaving name).Fits s := hpc ▸ h.fits t
  refine h.quiet rfl (h.lock.goto fun h => by cases h) rfl rfl (by rw [hpc]; rfl) rfl ?_
  intro n content hr
  rcases List.mem_append.mp hr with hr | hr
  · exact h.returned n content hr
  · cases List.mem_singleton.mp hr
    exact hcomplete

lemma Sound.advance (h : Sound process s) (halive : s.alive (process t) = true)
    {body : List UInt8} (hguard : Undisturbed process s (.advance t body))
    (hstep : s.advance process t body = some s') : Sound process s' := by
  rw [System.advance] at hstep
  rw [Undisturbed] at hguard
  cases hpc : s.pc t with
  | idle | downloading d =>
    rw [hpc] at hstep
    cases hstep
  | calling name =>
    simp only [hpc] at hstep
    split_ifs at hstep with hfree
    cases hstep
    exact h.quiet rfl (h.lock.acquire hfree) rfl rfl (by rw [hpc]; rfl) rfl h.returned
  | locked name =>
    simp only [hpc] at hstep hguard
    split at hstep
    · cases hstep
      exact h.quiet rfl (h.lock.goto fun _ => by rw [hpc]; rfl) rfl rfl (by rw [hpc]; rfl) rfl
        h.returned
    · next hnone =>
      cases hstep
      exact h.miss halive (by rw [hpc]; rfl) (by rw [hpc]; rfl) (.inl hnone) (hguard hnone)
  | seen name =>
    simp only [hpc] at hstep hguard
    split at hstep
    · next hcontent =>
      cases hstep
      simp only [hcontent] at hguard
      exact h.found halive hpc hcontent hguard
    · next hempty =>
      cases hstep
      simp only [hempty] at hguard
      exact h.miss halive (by rw [hpc]; rfl) (by rw [hpc]; rfl) (.inr hempty) hguard
    · cases hstep
      exact h.raise (by rw [hpc]; rfl) halive (fun _ hc => by rw [hpc] at hc; cases hc) _
  | missed name =>
    simp only [hpc] at hstep
    cases hstep
    exact h.opens hpc body
  | downloaded name =>
    simp only [hpc] at hstep
    split at hstep
    · cases hstep
      exact h.fetched halive hpc
    · cases hstep
      exact h.raise (by rw [hpc]; rfl) halive (fun _ hc => by rw [hpc] at hc; cases hc) _
  | leaving name =>
    simp only [hpc] at hstep
    cases hstep
    exact h.returns hpc

lemma step_sound {a : Action} (h : Sound process s) (hguard : Undisturbed process s a)
    (hstep : s.step process a = some s') : Sound process s' := by
  cases a with
  | call t name =>
    simp only [System.step] at hstep
    split_ifs at hstep with hidle
    cases hstep
    exact h.quiet rfl (h.lock.goto fun h => by cases h) rfl rfl (by rw [hidle.2]; rfl) rfl
      h.returned
  | advance t body =>
    simp only [System.step] at hstep
    split_ifs at hstep with halive
    exact h.advance halive hguard hstep
  | write t n =>
    simp only [System.step] at hstep
    split at hstep
    · next d hpc =>
      cases hstep
      exact h.write hpc (List.take_prefix ..)
    · cases hstep
  | finish t =>
    simp only [System.step] at hstep
    split at hstep
    · next d hpc =>
      split_ifs at hstep with hall
      · cases hstep
        exact h.finish hpc hall (.inl rfl)
      · cases hstep
        exact h.finish hpc hall (.inr rfl)
    · cases hstep
  | fail t error stderr =>
    simp only [System.step] at hstep
    split at hstep
    · next d hpc =>
      cases hstep
      split_ifs with halive
      · obtain ⟨-, hfile⟩ := Pc.changes_of_downloading hpc
        refine h.raise (by rw [hpc]; rfl) halive (fun name _ hname => ?_) _
        have heq : d.name = name := Option.some.inj (hfile.symm.trans hname)
        exact heq ▸ (hguard d hpc).imp (h.left hpc).1 (h.left hpc).2
      · exact h.abandon hpc (hguard d hpc)
    · next name hpc =>
      split_ifs at hstep with halive
      cases hstep
      refine h.raise (by rw [hpc]; rfl) halive (fun name' _ hname => ?_) _
      have hlacks : (Pc.missed name).Fits s := hpc ▸ h.fits t
      rw [hpc] at hname
      cases hname
      exact .inl hlacks
    · cases hstep
  | kill p =>
    cases hstep
    exact h.kill p

/-- **Every path that is returned is one of a complete package, and no file has two downloads**,
in every run in which the calls and downloads of different processes do not get in each other's
way, and a download that fails has written nothing, or everything. -/
theorem returned_complete {as : List Action}
    (hrun : Run (System.step process) (Undisturbed process) .start as s) :
    Safe s := by
  have hsound : Sound process s :=
    hrun.invariant (fun h hguard hstep => step_sound h hguard hstep) sound_start
  refine ⟨hsound.returned, fun t t' d d' hd hd' hname => ?_⟩
  obtain ⟨hchanges, hfile⟩ := Pc.changes_of_downloading hd
  obtain ⟨-, hfile'⟩ := Pc.changes_of_downloading hd'
  exact (hsound.alone t t' hchanges (by rw [hfile, hfile', hname])).symm

end Sound

/-! ## Two calls for one file -/

def debName : Text := "wazuh-agent_4.9.0-1_amd64.deb".toList

/-- A thread downloads a package of three bytes, up to where it is to write. -/
def openedBy (t : ℕ) : List Action :=
  [.call t debName, .advance t [], .advance t [], .advance t [1, 2, 3]]

/-- A thread finds a file that is not empty, and returns its path. -/
def foundBy (t : ℕ) : List Action :=
  [.call t debName, .advance t [], .advance t [], .advance t [], .advance t []]

/-- While all other threads are idle, a file that is missed is fetched by none. -/
lemma unfetched_of_idle {process : ℕ → ℕ} {s : System} {t : ℕ} (name : Text)
    (hself : (s.pc t).file = none) (hothers : ∀ t', t' ≠ t → s.pc t' = .idle) :
    s.Unfetched process t name := by
  intro t' hfile
  by_cases ht : t' = t
  · rw [ht, hself] at hfile
    cases hfile
  · rw [hothers t' ht] at hfile
    cases hfile

/-- A thread downloads a package, and then another one of its process finds it. -/
theorem returned_complete_deb :
    ∃ s, Run (System.step fun _ => 0) (Undisturbed fun _ => 0) .start
      (openedBy 0 ++ [.write 0 3, .finish 0, .advance 0 [], .advance 0 []] ++ foundBy 1) s ∧
      s.results = [.returned debName (some [1, 2, 3]), .returned debName (some [1, 2, 3])] ∧
      Safe s := by
  have hmiss : ∀ t', t' ≠ 0 → Function.update (Function.update System.start.pc 0
      (.calling debName)) 0 (.locked debName) t' = .idle := by
    intro t' ht
    rw [Function.update_of_ne ht, Function.update_of_ne ht]
    rfl
  have hrun : Run (System.step fun _ => 0) (Undisturbed fun _ => 0) .start
      (openedBy 0 ++ [.write 0 3, .finish 0, .advance 0 [], .advance 0 []] ++ foundBy 1) _ :=
    .cons trivial rfl <| .cons trivial rfl <|
      .cons (fun _ => unfetched_of_idle debName rfl hmiss) rfl <| .cons trivial rfl <|
      .cons trivial rfl <| .cons trivial rfl <| .cons trivial rfl <| .cons trivial rfl <|
      .cons trivial rfl <| .cons trivial rfl <| .cons (fun h => by cases h) rfl <|
      .cons (fun _ _ hprocess => absurd rfl hprocess) rfl <| .cons trivial rfl <| .nil _
  exact ⟨_, hrun, rfl, returned_complete hrun⟩

/-- Another process returns the path of a file of which one byte is written; two processes
download one file; and a path is returned of what a download has left that failed. -/
theorem returned_incomplete :
    (∃ s, Run (System.step id) anyStep .start (openedBy 0 ++ [.write 0 1] ++ foundBy 1) s ∧
      s.results = [.returned debName (some [1])] ∧ ¬Safe s) ∧
    (∃ s, Run (System.step id) anyStep .start
      ([.call 0 debName, .advance 0 [], .advance 0 []] ++ openedBy 1 ++ [.advance 0 [1, 2, 3]]) s ∧
      s.pc 0 = .downloading ⟨debName, [1, 2, 3], 0⟩ ∧ s.pc 1 = s.pc 0 ∧ ¬Safe s) ∧
    ∃ s, Run (System.step id) anyStep .start
      (openedBy 0 ++ [.write 0 1, .fail 0 "Command timeout after 180s".toList []] ++ foundBy 0) s ∧
      s.results = [.raised (System.notDownloaded debName "Command timeout after 180s".toList []),
        .returned debName (some [1])] ∧ ¬Safe s := by
  refine ⟨?_, ?_, ?_⟩
  · have hrun : Run (System.step id) anyStep .start (openedBy 0 ++ [.write 0 1] ++ foundBy 1) _ :=
      run_of_exec rfl
    refine ⟨_, hrun, rfl, fun h => ?_⟩
    obtain ⟨body, hbody, hcontent⟩ := h.returned debName (some [1]) (by decide)
    cases List.mem_singleton.mp hbody
    exact absurd hcontent (by decide)
  · have hrun : Run (System.step id) anyStep .start
        ([.call 0 debName, .advance 0 [], .advance 0 []] ++ openedBy 1 ++
          [.advance 0 [1, 2, 3]]) _ := run_of_exec rfl
    exact ⟨_, hrun, rfl, rfl, fun h => absurd (h.single 0 1 _ _ rfl rfl rfl) (by decide)⟩
  · have hrun : Run (System.step id) anyStep .start
        (openedBy 0 ++ [.write 0 1, .fail 0 "Command timeout after 180s".toList []] ++
          foundBy 0) _ := run_of_exec rfl
    refine ⟨_, hrun, rfl, fun h => ?_⟩
    obtain ⟨body, hbody, hcontent⟩ := h.returned debName (some [1]) (by decide)
    cases List.mem_singleton.mp hbody
    exact absurd hcontent (by decide)

end Habeny.Installers
