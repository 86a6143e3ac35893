import Habeny.Lib.Watched

/-!
# Programs that keep an invariant of their environment

`Confined I allowed p post` says that `p`, run in an environment that meets `I`, causes allowed
events only, leaves an environment that meets `I`, and that its result, if it has one, meets
`post`.  In contrast to `Watched`, which forgets the environment, what a program takes from its
environment may be used.  There is one rule for each way to build a program.
-/

namespace Habeny.Lib

variable {ω ε χ α β γ : Type} {I : ω → Prop} {allowed : ε → Prop}

/-- A program causes allowed events only and keeps an invariant; its result meets `post`. -/
def Confined (I : ω → Prop) (allowed : ε → Prop) (p : Prog ω ε χ α) (post : α → Prop) : Prop :=
  ∀ w, I w → (∀ e ∈ (p w).events, allowed e) ∧ I (p w).env ∧
    ∀ a, (p w).result = .ok a → post a

namespace Confined

variable {post : α → Prop}

lemma ret {a : α} (h : post a) : Confined I allowed (Prog.ret a : Prog ω ε χ α) post := by
  intro w hw
  refine ⟨fun e he => absurd he List.not_mem_nil, hw, fun b hb => ?_⟩
  obtain rfl := Except.ok.inj hb
  exact h

lemma fail {e : χ} : Confined I allowed (Prog.fail e : Prog ω ε χ α) post :=
  fun _ hw => ⟨fun _ he => absurd he List.not_mem_nil, hw, fun _ hb => by cases hb⟩

lemma emit {e : ε} {post : Unit → Prop} (he : allowed e) (hpost : post ()) :
    Confined I allowed (Prog.emit e : Prog ω ε χ Unit) post := by
  intro w hw
  refine ⟨fun d hd => ?_, hw, fun _ _ => hpost⟩
  rw [List.mem_singleton.mp hd]
  exact he

lemma take {f : ω → α × ω} (h : ∀ w, I w → I (f w).2 ∧ post (f w).1) :
    Confined I allowed (Prog.take f : Prog ω ε χ α) post := by
  intro w hw
  refine ⟨fun e he => absurd he List.not_mem_nil, (h w hw).1, fun b hb => ?_⟩
  obtain rfl := Except.ok.inj hb
  exact (h w hw).2

/-- **The rule of sequencing**: what the first program's result meets, the second may use. -/
lemma bind {p : Prog ω ε χ α} {k : α → Prog ω ε χ β} {post' : β → Prop}
    (hp : Confined I allowed p post) (hk : ∀ a, post a → Confined I allowed (k a) post') :
    Confined I allowed (p >>= k) post' := by
  intro w hw
  obtain ⟨hevents, henv, hpost⟩ := hp w hw
  rw [Prog.bind_apply, Prog.andThen]
  rcases hpw : p w with ⟨e | a, es, w'⟩
  · rw [hpw] at hevents henv
    exact ⟨hevents, henv, fun _ hb => by cases hb⟩
  · rw [hpw] at hevents henv hpost
    obtain ⟨hevents', henv', hpost'⟩ := hk a (hpost a rfl) w' henv
    refine ⟨fun e he => ?_, henv', hpost'⟩
    rcases List.mem_append.mp he with he | he
    · exact hevents e he
    · exact hevents' e he

lemma mono {p : Prog ω ε χ α} {post' : α → Prop} (hp : Confined I allowed p post)
    (h : ∀ a, post a → post' a) : Confined I allowed p post' :=
  fun w hw => ⟨(hp w hw).1, (hp w hw).2.1, fun a ha => h a ((hp w hw).2.2 a ha)⟩

/-- Programs for all elements of a list, one after the other. -/
lemma forEach {f : γ → Prog ω ε χ β} {xs : List γ}
    (h : ∀ x ∈ xs, Confined I allowed (f x) fun _ => True) :
    Confined I allowed (Prog.forEach f xs) fun _ => True := by
  induction xs with
  | nil => exact ret trivial
  | cons x xs ih =>
    rw [List.forall_mem_cons] at h
    exact bind h.1 fun b _ => bind (ih h.2) fun bs _ => ret trivial

end Confined

end Habeny.Lib
