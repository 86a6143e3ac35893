import Mathlib.Data.Option.Basic
import Mathlib.Data.List.Basic

/-!
# Programs and a monitor that watches their events

A program `Prog ω ε χ α` runs in an environment of type `ω`, causes events of type `ε` and
ends with a result or with an error of type `χ`.  A monitor reads the events one by one and
keeps a state; where it has no next state the events are forbidden.

`Watched monitor pre p post err` says that from every monitor state in `pre`, and in every
environment, the events of `p` are allowed and the state they lead to meets `post` of the
result, or `err` of the error.  It has one rule for each way to build a program.
-/

namespace Habeny.Lib

/-- What a program did: its result, the events it caused and the environment it left. -/
structure Outcome (ω ε χ α : Type) where
  result : Except χ α
  events : List ε
  env : ω

/-- A program. -/
def Prog (ω ε χ α : Type) := ω → Outcome ω ε χ α

namespace Prog

variable {ω ε χ χ' α β γ : Type}

def ret (a : α) : Prog ω ε χ α := fun w => ⟨.ok a, [], w⟩

/-- End with an error. -/
def fail (e : χ) : Prog ω ε χ α := fun w => ⟨.error e, [], w⟩

/-- Cause an event. -/
def emit (e : ε) : Prog ω ε χ Unit := fun w => ⟨.ok (), [e], w⟩

/-- Take something from the environment. -/
def take (f : ω → α × ω) : Prog ω ε χ α := fun w => ⟨.ok (f w).1, [], (f w).2⟩

/-- Go on with the result, unless there was an error. -/
def andThen (p : Prog ω ε χ α) (k : α → Prog ω ε χ β) : Prog ω ε χ β := fun w =>
  match p w with
  | ⟨.ok a, es, w'⟩ =>
    let o := k a w'
    ⟨o.result, es ++ o.events, o.env⟩
  | ⟨.error e, es, w'⟩ => ⟨.error e, es, w'⟩

instance : Monad (Prog ω ε χ) where
  pure := ret
  bind := andThen

lemma bind_apply (p : Prog ω ε χ α) (k : α → Prog ω ε χ β) (w : ω) :
    (p >>= k) w = andThen p k w := rfl

/-- Run a program to its end and see how it ended. -/
def attempt (p : Prog ω ε χ α) : Prog ω ε χ' (Except χ α) := fun w =>
  ⟨.ok (p w).result, (p w).events, (p w).env⟩

/-- Run a program for every element of a list, one after the other. -/
def forEach (f : γ → Prog ω ε χ β) : List γ → Prog ω ε χ (List β)
  | [] => ret []
  | x :: xs => do
    let b ← f x
    let bs ← forEach f xs
    ret (b :: bs)

end Prog

/-! ## Monitors -/

section Monitor

variable {μ ε : Type}

/-- The state a monitor is in after some events. -/
def watch (monitor : μ → ε → Option μ) : μ → List ε → Option μ
  | m, [] => some m
  | m, e :: es => (monitor m e).bind fun m' => watch monitor m' es

@[simp] lemma watch_nil (monitor : μ → ε → Option μ) (m : μ) : watch monitor m [] = some m := rfl

lemma watch_append (monitor : μ → ε → Option μ) (m : μ) (es fs : List ε) :
    watch monitor m (es ++ fs) = (watch monitor m es).bind fun m' => watch monitor m' fs := by
  induction es generalizing m with
  | nil => rfl
  | cons e es ih =>
    rw [List.cons_append, watch, watch]
    cases monitor m e with
    | none => rfl
    | some m' => exact ih m'

end Monitor

/-! ## Watched programs -/

section Watched

variable {ω ε χ χ' α β γ μ : Type} {monitor : μ → ε → Option μ}

/-- How a program ended, in a monitor state. -/
def Ends (post : α → μ → Prop) (err : χ → μ → Prop) (r : Except χ α) (m : μ) : Prop :=
  match r with
  | .ok a => post a m
  | .error e => err e m

/-- The events of a program are allowed, and it ends as it should. -/
def Watched (monitor : μ → ε → Option μ) (pre : μ → Prop) (p : Prog ω ε χ α)
    (post : α → μ → Prop) (err : χ → μ → Prop) : Prop :=
  ∀ w m, pre m → ∃ m', watch monitor m (p w).events = some m' ∧ Ends post err (p w).result m'

variable {pre pre' : μ → Prop} {post post' : α → μ → Prop} {err err' : χ → μ → Prop}

lemma Watched.ret {a : α} (h : ∀ m, pre m → post a m) :
    Watched monitor pre (Prog.ret a : Prog ω ε χ α) post err :=
  fun _ m hm => ⟨m, rfl, h m hm⟩

lemma Watched.fail {e : χ} (h : ∀ m, pre m → err e m) :
    Watched monitor pre (Prog.fail e : Prog ω ε χ α) post err :=
  fun _ m hm => ⟨m, rfl, h m hm⟩

lemma Watched.emit {e : ε} {post : Unit → μ → Prop}
    (h : ∀ m, pre m → ∃ m', monitor m e = some m' ∧ post () m') :
    Watched monitor pre (Prog.emit e : Prog ω ε χ Unit) post err := by
  intro w m hm
  obtain ⟨m', he, hpost⟩ := h m hm
  exact ⟨m', by simp [Prog.emit, watch, he], hpost⟩

lemma Watched.take {f : ω → α × ω} (h : ∀ a m, pre m → post a m) :
    Watched monitor pre (Prog.take f : Prog ω ε χ α) post err :=
  fun w m hm => ⟨m, rfl, h (f w).1 m hm⟩

/-- **The rule of sequencing.** -/
lemma Watched.bind {p : Prog ω ε χ α} {k : α → Prog ω ε χ β} {R : α → μ → Prop}
    {post : β → μ → Prop} (hp : Watched monitor pre p R err)
    (hk : ∀ a, Watched monitor (R a) (k a) post err) :
    Watched monitor pre (p >>= k) post err := by
  intro w m hm
  obtain ⟨m₁, hw₁, hend⟩ := hp w m hm
  rw [Prog.bind_apply, Prog.andThen]
  rcases hpw : p w with ⟨_ | a, es, w'⟩
  · rw [hpw] at hw₁ hend
    exact ⟨m₁, hw₁, hend⟩
  · rw [hpw] at hw₁ hend
    obtain ⟨m₂, hw₂, hend₂⟩ := hk a w' m₁ hend
    refine ⟨m₂, ?_, hend₂⟩
    simp only at hw₁ ⊢
    rw [watch_append, hw₁]
    exact hw₂

/-- **The rule of consequence.** -/
lemma Watched.mono {p : Prog ω ε χ α} (h : Watched monitor pre p post err)
    (hpre : ∀ m, pre' m → pre m) (hpost : ∀ a m, post a m → post' a m)
    (herr : ∀ e m, err e m → err' e m) : Watched monitor pre' p post' err' := by
  intro w m hm
  obtain ⟨m', hw, hend⟩ := h w m (hpre m hm)
  refine ⟨m', hw, ?_⟩
  cases hr : (p w).result with
  | ok a =>
    rw [hr] at hend
    exact hpost a m' hend
  | error e =>
    rw [hr] at hend
    exact herr e m' hend

/-- A program that is seen to its end ends with what its result was. -/
lemma Watched.attempt {p : Prog ω ε χ α} {err' : χ' → μ → Prop}
    (h : Watched monitor pre p post err) :
    Watched monitor pre (p.attempt : Prog ω ε χ' (Except χ α)) (Ends post err) err' := h

/-- Programs for all elements of a list, one after the other, keep what each of them keeps;
the results so far are part of it. -/
lemma Watched.forEach {f : γ → Prog ω ε χ β} {I : List β → μ → Prop} {xs : List γ}
    (hf : ∀ x bs, Watched monitor (I bs) (f x) (fun b m => I (bs ++ [b]) m) err)
    (bs : List β) :
    Watched monitor (I bs) (Prog.forEach f xs) (fun cs m => I (bs ++ cs) m) err := by
  induction xs generalizing bs with
  | nil =>
    exact Watched.ret fun m hm => by simpa using hm
  | cons x xs ih =>
    refine Watched.bind (hf x bs) fun b => Watched.bind (ih (bs ++ [b])) fun cs => ?_
    exact Watched.ret fun m hm => by simpa using hm

end Watched

end Habeny.Lib
