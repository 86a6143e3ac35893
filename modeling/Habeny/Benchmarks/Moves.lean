import Habeny.Benchmarks.Engine

/-!
# What a step does to a benchmark

What a step of the server can do to one benchmark is a move of its cell: a step of its coroutine,
a request, or something that happens to all benchmarks.  Every benchmark of a reached server lives
by such moves, whatever else runs at the same time.
-/

namespace Habeny.Benchmarks

open Habeny.Lib

variable {env : Arithmetic} {c c' : Cell}

/-! ## Moves -/

/-- What happens to a benchmark in a step of the server. -/
inductive Moves (env : Arithmetic) : Bool → Cell → Bool → Cell → Prop
  | stay (up : Bool) (c : Cell) : Moves env up c up c
  | start {s : Scenario} (hs : s ∈ scenarios) (config : Config) (now : ℕ) :
    Moves env true .empty true (start s config now)
  | own {up : Bool} {c c' : Cell} {r : Coroutine} {a : Own} (hrun : c.run = some r)
    (ha : c.advance env r a = some c') : Moves env up c up c'
  | wake {up : Bool} {c : Cell} {r : Coroutine} {l : Local} (hrun : c.run = some r)
    (hpoint : r.point = .asleep l) : Moves env up c up (c.goto r (.monitor l))
  | stop {c : Cell} (hloop : c.holdsLoop = false) (now : ℕ) : Moves env true c true (c.stop now)
  | cleanup (c : Cell) (now : ℕ) : Moves env true c true (c.cleanup now)
  | prune (c : Cell) (before : ℕ) : Moves env true c true (c.prune before)
  | crash (c : Cell) : Moves env true c false { c with run := none }
  | restart (c : Cell) (now : ℕ) : Moves env false c true (c.cleanup now)

/-- What holds of the server besides its benchmarks. -/
structure World.Sound (w : World) : Prop where
  fresh : ∀ id, w.next ≤ id → w.cells id = .empty
  loop : ∀ id, (w.cells id).holdsLoop = true → w.loop = some id

lemma Cell.run_cleanup (c : Cell) (now : ℕ) : (c.cleanup now).run = c.run := by
  unfold Cell.cleanup
  split
  · split
    · rfl
    · rfl
  · rfl

lemma Cell.run_prune (c : Cell) (before : ℕ) : (c.prune before).run = c.run := by
  unfold Cell.prune
  split
  · split
    · rfl
    · rfl
  · rfl

lemma Cell.holdsLoop_congr (h : c'.run = c.run) : c'.holdsLoop = c.holdsLoop := by
  rw [Cell.holdsLoop, Cell.holdsLoop, h]

lemma Cell.holdsLoop_stop (c : Cell) (now : ℕ) : (c.stop now).holdsLoop = c.holdsLoop := by
  unfold Cell.stop
  split
  · next r _ hrun => rw [Cell.holdsLoop, Cell.holdsLoop, hrun]
  · split
    · rfl
    · rfl
  · rfl

/-- One cell takes a step, and the others stay. -/
lemma World.Sound.put {w : World} (h : w.Sound) {id : ℕ} (c : Cell) (hid : id < w.next)
    {loop : Option ℕ} {next : ℕ} (hnext : w.next ≤ next) (hc : c.holdsLoop = true → loop = some id)
    (hloop : ∀ id', id' ≠ id → w.loop = some id' → loop = some id') :
    World.Sound { w.put id c with loop := loop, next := next } where
  fresh id' hid' := by
    have hne : id' ≠ id := by
      rintro rfl
      exact absurd hid' (by simp only [not_le]; omega)
    exact (Function.update_of_ne hne ..).trans (h.fresh id' (hnext.trans hid'))
  loop id' hholds := by
    by_cases hne : id' = id
    · subst hne
      exact hc (by simpa [World.put] using hholds)
    · exact hloop id' hne (h.loop id' (by simpa [World.put, hne] using hholds))

/-- A step of the server is a move of each benchmark. -/
lemma World.Sound.step {w w' : World} (h : w.Sound) {a : Action} (hstep : step env w a = some w') :
    w'.Sound ∧ w.next ≤ w'.next ∧ ∀ id, Moves env w.up (w.cells id) w'.up (w'.cells id) := by
  have hone : ∀ {id : ℕ} {c : Cell}, Moves env w.up (w.cells id) w.up c →
      ∀ id', Moves env w.up (w.cells id') w.up ((w.put id c).cells id') := by
    intro id c hmove id'
    by_cases hne : id' = id
    · subst hne
      simpa [World.put] using hmove
    · simpa [World.put, hne] using Moves.stay w.up (w.cells id')
  have hold : ∀ {id : ℕ} {r : Coroutine}, (w.cells id).run = some r → id < w.next := by
    intro id r hrun
    by_contra hge
    rw [h.fresh id (not_lt.mp hge)] at hrun
    cases hrun
  cases a with
  | start scenarioId config now =>
    dsimp only [Benchmarks.step] at hstep
    split at hstep
    · next s hs =>
      split at hstep
      · next hguard =>
        obtain rfl := Option.some.inj hstep
        have hempty := h.fresh w.next le_rfl
        refine ⟨?_, Nat.le_succ _, hone ?_⟩
        · refine ⟨fun id hid => ?_, fun id hholds => ?_⟩
          · have hne : id ≠ w.next := by
              rintro rfl
              exact absurd hid (by simp)
            exact (Function.update_of_ne hne ..).trans (h.fresh id (by
              have : w.next + 1 ≤ id := hid
              omega))
          · by_cases hne : id = w.next
            · rw [hne]
            · have hloop := h.loop id (by simpa [World.put, hne] using hholds)
              rw [hguard.2] at hloop
              cases hloop
        · rw [hguard.1, hempty]
          exact .start (List.mem_of_find?_eq_some hs) config now
      · cases hstep
    · cases hstep
  | own a =>
    dsimp only [Benchmarks.step] at hstep
    split at hstep
    · next id hloop =>
      split at hstep
      · next r hrun =>
        obtain ⟨c, hc, rfl⟩ := Option.map_eq_some_iff.mp hstep
        refine ⟨?_, le_rfl, hone (.own hrun hc)⟩
        refine h.put c (hold hrun) le_rfl (fun hholds => by rw [if_pos hholds])
          fun id' hne heq => ?_
        rw [hloop, Option.some.injEq] at heq
        exact absurd heq.symm hne
      · cases hstep
    · cases hstep
  | wake id =>
    dsimp only [Benchmarks.step] at hstep
    split at hstep
    · next r hrun =>
      split at hstep
      · next l hpoint =>
        split at hstep
        · next hnone =>
          obtain rfl := Option.some.inj hstep
          refine ⟨?_, le_rfl, hone (.wake hrun hpoint)⟩
          refine h.put _ (hold hrun) le_rfl (fun _ => rfl) fun id' hne heq => ?_
          rw [hnone] at heq
          cases heq
        · cases hstep
      · cases hstep
    · cases hstep
  | stop id now =>
    dsimp only [Benchmarks.step] at hstep
    split at hstep
    · next hguard =>
      obtain rfl := Option.some.inj hstep
      have hfree : ∀ id, (w.cells id).holdsLoop = false := by
        intro id
        by_contra hholds
        have hloop := h.loop id (by simpa using hholds)
        rw [hguard.2] at hloop
        cases hloop
      refine ⟨⟨fun id' hid' => ?_, fun id' hholds => ?_⟩, le_rfl, hone ?_⟩
      · by_cases hne : id' = id
        · subst hne
          show Function.update w.cells id' _ id' = _
          rw [Function.update_self, h.fresh id' hid']
          rfl
        · exact (Function.update_of_ne hne ..).trans (h.fresh id' hid')
      · by_cases hne : id' = id
        · subst hne
          rw [show (w.put id' ((w.cells id').stop now)).cells id' = (w.cells id').stop now by
            simp [World.put], Cell.holdsLoop_stop, hfree id'] at hholds
          cases hholds
        · rw [show (w.put id ((w.cells id).stop now)).cells id' = w.cells id' by
            simp [World.put, hne], hfree id'] at hholds
          cases hholds
      · rw [hguard.1]
        exact .stop (hfree id) now
    · cases hstep
  | cleanup now =>
    dsimp only [Benchmarks.step] at hstep
    split at hstep
    · next hguard =>
      obtain rfl := Option.some.inj hstep
      refine ⟨⟨fun id hid => ?_, fun id hholds => ?_⟩, le_rfl, fun id => ?_⟩
      · show (w.cells id).cleanup now = .empty
        rw [h.fresh id hid]
        rfl
      · exact h.loop id (Cell.holdsLoop_congr ((w.cells id).run_cleanup now) ▸ hholds)
      · rw [hguard.1]
        exact .cleanup _ now
    · cases hstep
  | prune before =>
    dsimp only [Benchmarks.step] at hstep
    split at hstep
    · next hup =>
      obtain rfl := Option.some.inj hstep
      refine ⟨⟨fun id hid => ?_, fun id hholds => ?_⟩, le_rfl, fun id => ?_⟩
      · show (w.cells id).prune before = .empty
        rw [h.fresh id hid]
        rfl
      · exact h.loop id (Cell.holdsLoop_congr ((w.cells id).run_prune before) ▸ hholds)
      · rw [hup]
        exact .prune _ before
    · cases hstep
  | crash =>
    dsimp only [Benchmarks.step] at hstep
    split at hstep
    · next hup =>
      obtain rfl := Option.some.inj hstep
      refine ⟨⟨fun id hid => ?_, fun id hholds => ?_⟩, le_rfl, fun id => ?_⟩
      · show ({ w.cells id with run := none } : Cell) = .empty
        rw [h.fresh id hid]
        rfl
      · cases hholds
      · rw [hup]
        exact .crash _
    · cases hstep
  | restart now =>
    dsimp only [Benchmarks.step] at hstep
    split at hstep
    · next hdown =>
      obtain rfl := Option.some.inj hstep
      refine ⟨⟨fun id hid => ?_, fun id hholds => ?_⟩, le_rfl, fun id => ?_⟩
      · show (w.cells id).cleanup now = .empty
        rw [h.fresh id hid]
        rfl
      · exact h.loop id (Cell.holdsLoop_congr ((w.cells id).run_cleanup now) ▸ hholds)
      · rw [hdown]
        exact .restart _ now
    · cases hstep

/-- What is reached from a server without benchmarks. -/
def Reached (env : Arithmetic) (w : World) : Prop :=
  ∃ as, Run (step env) anyStep World.initial as w

/-- What a benchmark may have come to. -/
inductive Lives (env : Arithmetic) : Bool → Cell → Prop
  | empty (up : Bool) : Lives env up .empty
  | moves {up up' : Bool} {c c' : Cell} (h : Lives env up c) (hm : Moves env up c up' c') :
    Lives env up' c'

/-- A reached world is sound, and each of its benchmarks lives. -/
lemma Reached.lives {w : World} (h : Reached env w) :
    w.Sound ∧ ∀ id, Lives env w.up (w.cells id) := by
  obtain ⟨as, hrun⟩ := h
  refine hrun.invariant (P := fun w : World => w.Sound ∧ ∀ id, Lives env w.up (w.cells id))
    (fun hw _ hstep => ?_) ⟨⟨fun _ _ => rfl, fun _ hholds => by cases hholds⟩, fun _ => .empty _⟩
  obtain ⟨hsound, -, hmoves⟩ := hw.1.step hstep
  exact ⟨hsound, fun id => .moves (hw.2 id) (hmoves id)⟩

end Habeny.Benchmarks
