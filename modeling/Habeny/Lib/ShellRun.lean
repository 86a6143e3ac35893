import Habeny.Lib.Shell
import Habeny.Lib.JsonText

/-!
# Running a shell script

What a script does: which commands it runs with which arguments, what it writes, and the values of
its variables.  The commands themselves (also those that are built into a shell) are those of a
`Host`, which also opens and writes the files of redirections.

A script whose simple commands all begin with a word that is written out runs those commands only,
whatever its variables hold and whatever the commands do (`runScript_calls`).
-/

namespace Habeny.Lib.Shell

open CodeText

/-- What a command wrote, its status, and what it left behind. -/
structure Result (σ : Type) where
  output : CodeText
  status : ℕ
  world : σ

/-- What is outside of the shell: the commands, the files, the names of paths that match a field,
and what it makes of a value that is no decimal number where a number is needed. -/
structure Host (σ : Type) where
  call : List CodeText → σ → Result σ
  openFile : Bool → CodeText → σ → Option σ
  append : CodeText → CodeText → σ → σ
  paths : CodeText → σ → List CodeText
  number : CodeText → ℤ

structure State (σ : Type) where
  vars : CodeText → CodeText
  world : σ
  output : CodeText
  status : ℕ
  /-- the commands that were run, with their arguments -/
  calls : List (List CodeText)

variable {σ : Type} (h : Host σ)

/-- A number in the 64 bits that a shell has for it. -/
def wrap (n : ℤ) : ℤ := Int.bmod n (2 ^ 64)

/-- The value of a variable as a number. -/
def Host.value (text : CodeText) : ℤ :=
  match text with
  | [] => 0
  | c :: s =>
    if (c :: s).all isDigit ∧ (c ≠ 48 ∨ s = []) then wrap (Arith.numberOf (c :: s))
    else if c = 45 ∧ s ≠ [] ∧ s.all isDigit ∧ s.head? ≠ some 48 then
      wrap (-(Arith.numberOf s : ℤ))
    else h.number text

def Arith.eval (vars : CodeText → CodeText) : Arith → ℤ
  | .num n => wrap n
  | .var name => h.value (vars name)
  | .add a b => wrap (a.eval vars + b.eval vars)
  | .sub a b => wrap (a.eval vars - b.eval vars)
  | .mul a b => wrap (a.eval vars * b.eval vars)

/-- The fields of what is expanded outside of quotes. -/
def fieldsOf (text : CodeText) : List CodeText :=
  (text.splitOnP fun c => decide (c ∈ [blank, tab, newline])).filter fun w => !w.isEmpty

/-- What is left of the output of a substitution. -/
def trimNewlines (text : CodeText) : CodeText := text.rdropWhile fun c => decide (c = newline)

def State.setVar (s : State σ) (name value : CodeText) : State σ :=
  { s with vars := Function.update s.vars name value }

/-- Where the output of a command goes: to a file that was opened, or to that of the script.  The
redirection of another output is opened only. -/
structure Outlet (σ : Type) where
  file : Option CodeText
  failed : Bool
  state : State σ

/-- Open the file of a redirection, if those before it were opened. -/
def openWith (fd : CodeText) (append : Bool) (target : CodeText) (o : Outlet σ) : Outlet σ :=
  if o.failed then o
  else
    match h.openFile append target o.state.world with
    | none => { o with failed := true }
    | some world =>
      -- the error output is not followed here
      { o with state := { o.state with world := world },
               file := if fd = [] ∨ fd = lit "1" then some target else o.file }

/-- Run a command. -/
def callWith (argv : List CodeText) (o : Outlet σ) : State σ :=
  if o.failed then { o.state with status := 1 }
  else
    let result := h.call argv o.state.world
    let s : State σ := { o.state with status := result.status, calls := o.state.calls ++ [argv] }
    match o.file with
    | none => { s with world := result.world, output := s.output ++ result.output }
    | some target => { s with world := h.append target result.output result.world }

mutual

def expandPart : Part → State σ → CodeText × State σ
  | .char c _, s => ([c], s)
  | .param name _, s => (s.vars name, s)
  | .arith e _, s => (JsonText.intText (e.eval h s.vars), s)
  | .command body _, s =>
    -- in a copy of the shell, of which only the output, the status and the effects are kept
    let inner := runScript body { s with output := [] }
    (trimNewlines inner.output,
      { s with world := inner.world, status := inner.status, calls := inner.calls })

def expandParts : List Part → State σ → CodeText × State σ
  | [], s => ([], s)
  | part :: parts, s =>
    let first := expandPart part s
    let others := expandParts parts first.2
    (first.1 ++ others.1, others.2)

def expandWords : List Item → State σ → List CodeText × State σ
  | [], s => ([], s)
  | .word parts :: items, s =>
    let first := expandParts parts s
    let others := expandWords items first.2
    (first.1 :: others.1, others.2)
  | .fields part :: items, s =>
    let first := expandPart part s
    let others := expandWords items first.2
    ((fieldsOf first.1).flatMap (fun w => h.paths w first.2.world) ++ others.1, others.2)
  | .redirect _ _ _ :: items, s => expandWords items s

/-- Open the files of the redirections. -/
def redirectAll : List Item → Outlet σ → Outlet σ
  | [], o => o
  | .redirect fd append target :: items, o =>
    let file := expandParts target o.state
    redirectAll items (openWith h fd append file.1 { o with state := file.2 })
  | .word _ :: items, o => redirectAll items o
  | .fields _ :: items, o => redirectAll items o

def runCommand : Command → State σ → State σ
  | .assign name value, s =>
    let expanded := expandParts value { s with status := 0 }
    expanded.2.setVar name expanded.1
  | .simple items, s =>
    let words := expandWords items s
    callWith h words.1 (redirectAll items { file := none, failed := false, state := words.2 })
  | .orElse left right, s =>
    let first := runCommand left s
    if first.status = 0 then first else runCommand right first
  | .ifThen test body other, s =>
    let tested := runScript test s
    if tested.status = 0 then runScript body tested
    else runScript other { tested with status := 0 }
  | .forIn name words body, s =>
    let values := expandWords words s
    values.1.foldl (fun s value => runScript body (s.setVar name value))
      { values.2 with status := 0 }

def runScript : List Command → State σ → State σ
  | [], s => s
  | command :: commands, s => runScript commands (runCommand command s)

end

/-! ## The commands that a script runs -/

/-- The text of a word in which nothing is expanded. -/
def literal : List Part → Option CodeText
  | [] => some []
  | .char c _ :: parts => (literal parts).map (c :: ·)
  | _ => none

mutual

/-- Whether only the commands of a list are run. -/
def Part.runsOnly (names : List CodeText) : Part → Bool
  | .command body _ => scriptRunsOnly names body
  | _ => true

def partsRunOnly (names : List CodeText) : List Part → Bool
  | [] => true
  | part :: parts => part.runsOnly names && partsRunOnly names parts

def Item.runsOnly (names : List CodeText) : Item → Bool
  | .word parts => partsRunOnly names parts
  | .fields part => part.runsOnly names
  | .redirect _ _ target => partsRunOnly names target

def itemsRunOnly (names : List CodeText) : List Item → Bool
  | [] => true
  | item :: items => item.runsOnly names && itemsRunOnly names items

def Command.runsOnly (names : List CodeText) : Command → Bool
  | .assign _ value => partsRunOnly names value
  | .simple (.word program :: items) =>
    names.any (fun name => literal program == some name) && itemsRunOnly names items
  | .simple _ => false
  | .orElse left right => left.runsOnly names && right.runsOnly names
  | .ifThen test body other =>
    scriptRunsOnly names test && scriptRunsOnly names body && scriptRunsOnly names other
  | .forIn _ words body => itemsRunOnly names words && scriptRunsOnly names body

def scriptRunsOnly (names : List CodeText) : List Command → Bool
  | [] => true
  | command :: commands => command.runsOnly names && scriptRunsOnly names commands

end

mutual

/-- The variables that the expressions of a part read. -/
def Part.numberVars : Part → List CodeText
  | .arith e _ => e.vars
  | .command body _ => scriptNumberVars body
  | _ => []

def partsNumberVars : List Part → List CodeText
  | [] => []
  | part :: parts => part.numberVars ++ partsNumberVars parts

def Item.numberVars : Item → List CodeText
  | .word parts => partsNumberVars parts
  | .fields part => part.numberVars
  | .redirect _ _ target => partsNumberVars target

def itemsNumberVars : List Item → List CodeText
  | [] => []
  | item :: items => item.numberVars ++ itemsNumberVars items

def Command.numberVars : Command → List CodeText
  | .assign _ value => partsNumberVars value
  | .simple items => itemsNumberVars items
  | .orElse left right => left.numberVars ++ right.numberVars
  | .ifThen test body other =>
    scriptNumberVars test ++ scriptNumberVars body ++ scriptNumberVars other
  | .forIn _ words body => itemsNumberVars words ++ scriptNumberVars body

/-- The variables that the expressions of a script read. -/
def scriptNumberVars : List Command → List CodeText
  | [] => []
  | command :: commands => command.numberVars ++ scriptNumberVars commands

end

/-- Every command that was run is one of those. -/
def Runs (names : List CodeText) (s : State σ) : Prop :=
  ∀ call ∈ s.calls, ∃ name ∈ names, call.head? = some name

variable {h} {names : List CodeText}

/-- A word that is written out is itself, and nothing happens. -/
lemma expandParts_literal {parts : List Part} {text : CodeText} (hparts : literal parts = some text)
    (s : State σ) : expandParts h parts s = (text, s) := by
  induction parts generalizing text with
  | nil =>
    obtain rfl : [] = text := Option.some.inj hparts
    rfl
  | cons part parts ih =>
    cases part with
    | char c q =>
      obtain ⟨others, hothers, rfl⟩ := Option.map_eq_some_iff.mp hparts
      rw [expandParts, expandPart, ih hothers]
      rfl
    | param name q => exact absurd hparts (by simp [literal])
    | arith e q => exact absurd hparts (by simp [literal])
    | command body q => exact absurd hparts (by simp [literal])

lemma openWith_runs {fd target : CodeText} {append : Bool} {o : Outlet σ}
    (hs : Runs names o.state) : Runs names (openWith h fd append target o).state := by
  unfold openWith
  by_cases hfailed : o.failed = true
  · rw [if_pos hfailed]
    exact hs
  · rw [if_neg hfailed]
    cases h.openFile append target o.state.world with
    | none => exact hs
    | some world => exact hs

lemma callWith_runs {argv : List CodeText} {o : Outlet σ} (hs : Runs names o.state)
    (hname : ∃ name ∈ names, argv.head? = some name) : Runs names (callWith h argv o) := by
  unfold callWith
  have hcalls : ∀ call ∈ o.state.calls ++ [argv], ∃ name ∈ names, call.head? = some name := by
    intro call hcall
    obtain hcall | hcall := List.mem_append.mp hcall
    · exact hs call hcall
    · exact List.mem_singleton.mp hcall ▸ hname
  split_ifs
  · exact hs
  · cases o.file with
    | none => exact hcalls
    | some target => exact hcalls

mutual

theorem expandPart_runs : ∀ (p : Part) (s : State σ), p.runsOnly names = true → Runs names s →
    Runs names (expandPart h p s).2
  | .char _ _, _, _, hs => hs
  | .param _ _, _, _, hs => hs
  | .arith _ _, _, _, hs => hs
  | .command body _, s, hp, hs => runScript_runs body { s with output := [] } hp hs

theorem expandParts_runs : ∀ (parts : List Part) (s : State σ), partsRunOnly names parts = true →
    Runs names s → Runs names (expandParts h parts s).2
  | [], _, _, hs => hs
  | p :: parts, s, hp, hs =>
    have hboth := (Bool.and_eq_true _ _).mp hp
    expandParts_runs parts _ hboth.2 (expandPart_runs p s hboth.1 hs)

theorem expandWords_runs : ∀ (items : List Item) (s : State σ), itemsRunOnly names items = true →
    Runs names s → Runs names (expandWords h items s).2
  | [], _, _, hs => hs
  | .word parts :: items, s, hp, hs =>
    have hboth := (Bool.and_eq_true _ _).mp hp
    expandWords_runs items _ hboth.2 (expandParts_runs parts s hboth.1 hs)
  | .fields part :: items, s, hp, hs =>
    have hboth := (Bool.and_eq_true _ _).mp hp
    expandWords_runs items _ hboth.2 (expandPart_runs part s hboth.1 hs)
  | .redirect _ _ _ :: items, _, hp, hs =>
    have hboth := (Bool.and_eq_true _ _).mp hp
    expandWords_runs items _ hboth.2 hs

theorem redirectAll_runs : ∀ (items : List Item) (o : Outlet σ), itemsRunOnly names items = true →
    Runs names o.state → Runs names (redirectAll h items o).state
  | [], _, _, hs => hs
  | .word _ :: items, o, hp, hs =>
    have hboth := (Bool.and_eq_true _ _).mp hp
    redirectAll_runs items o hboth.2 hs
  | .fields _ :: items, o, hp, hs =>
    have hboth := (Bool.and_eq_true _ _).mp hp
    redirectAll_runs items o hboth.2 hs
  | .redirect fd append target :: items, o, hp, hs => by
    have hboth := (Bool.and_eq_true _ _).mp hp
    have htarget := expandParts_runs target o.state hboth.1 hs
    rw [redirectAll]
    exact redirectAll_runs items _ hboth.2 (openWith_runs htarget)

theorem runCommand_runs : ∀ (c : Command) (s : State σ), c.runsOnly names = true → Runs names s →
    Runs names (runCommand h c s)
  | .assign _ value, s, hc, hs => expandParts_runs value { s with status := 0 } hc hs
  | .simple [], _, hc, _ => nomatch hc
  | .simple (.fields _ :: _), _, hc, _ => nomatch hc
  | .simple (.redirect _ _ _ :: _), _, hc, _ => nomatch hc
  | .simple (.word program :: items), s, hc, hs => by
    have hboth := (Bool.and_eq_true _ _).mp hc
    obtain ⟨name, hname, hbeq⟩ := List.any_eq_true.mp hboth.1
    have hliteral : literal program = some name := eq_of_beq hbeq
    have hwords : expandWords h (.word program :: items) s =
        (name :: (expandWords h items s).1, (expandWords h items s).2) := by
      rw [expandWords, expandParts_literal hliteral]
    have hs' := expandWords_runs items s hboth.2 hs
    rw [runCommand, hwords]
    exact callWith_runs (redirectAll_runs items _ hboth.2 hs')
      ⟨name, hname, rfl⟩
  | .orElse left right, s, hc, hs => by
    have hboth := (Bool.and_eq_true _ _).mp hc
    have hleft := runCommand_runs left s hboth.1 hs
    rw [runCommand]
    split_ifs
    · exact hleft
    · exact runCommand_runs right _ hboth.2 hleft
  | .ifThen test body other, s, hc, hs => by
    have hall := (Bool.and_eq_true _ _).mp hc
    have hboth := (Bool.and_eq_true _ _).mp hall.1
    have htest := runScript_runs test s hboth.1 hs
    rw [runCommand]
    split_ifs
    · exact runScript_runs body _ hboth.2 htest
    · exact runScript_runs other _ hall.2 htest
  | .forIn name words body, s, hc, hs => by
    have hboth := (Bool.and_eq_true _ _).mp hc
    have hwords := expandWords_runs words s hboth.1 hs
    rw [runCommand]
    -- every round begins where the one before it ended
    have hrounds : ∀ (values : List CodeText) (s : State σ), Runs names s → Runs names
        (values.foldl (fun s value => runScript h body (s.setVar name value)) s) := by
      intro values
      induction values with
      | nil => exact fun s hs => hs
      | cons value values ih =>
        exact fun s hs => ih _ (runScript_runs body (s.setVar name value) hboth.2 hs)
    exact hrounds _ _ hwords

theorem runScript_runs : ∀ (commands : Script) (s : State σ),
    scriptRunsOnly names commands = true → Runs names s → Runs names (runScript h commands s)
  | [], _, _, hs => hs
  | c :: commands, s, hc, hs =>
    have hboth := (Bool.and_eq_true _ _).mp hc
    runScript_runs commands _ hboth.2 (runCommand_runs c s hboth.1 hs)

end

end Habeny.Lib.Shell
