import Habeny.Lib.Text

/-!
# Routing a path

A route pattern is a list of segments, each a fixed word or a parameter that stands for one
non-empty segment, possibly ending in a parameter that takes the rest of the line.  This is
what the path templates of a web framework compile to: `{x}` is `[^/]+`, `{x:path}` is `.*`,
and the pattern is anchored by `^` and `$`, where `$` also stands before a newline that ends
the text.

`route` looks a path up in a table of routes: the first entry whose pattern and method match
serves the request.
-/

namespace Habeny.Lib

/-- One segment of a pattern. -/
inductive Seg where
  /-- `/word` -/
  | lit (w : Text)
  /-- `/{x}` -/
  | param
  deriving DecidableEq

/-- A pattern: its segments, and whether `/{x:path}` follows them. -/
structure Pattern where
  segs : List Seg
  rest : Bool
  deriving DecidableEq

/-- What is left of a text after a word at its front. -/
def dropWord : Text → Text → Option Text
  | [], s => some s
  | _ :: _, [] => none
  | c :: w, d :: s => if c = d then dropWord w s else none

lemma dropWord_eq_some {w s r : Text} : dropWord w s = some r ↔ s = w ++ r := by
  induction w generalizing s with
  | nil => simp [dropWord]
  | cons c w ih =>
    rcases s with _ | ⟨d, s⟩
    · simp [dropWord]
    · by_cases hc : c = d
      · subst hc
        simp [dropWord, ih]
      · have hd : ¬d = c := fun h => hc h.symm
        simp [dropWord, hc, hd]

/-- What `$` matches: the end of the text, or a newline that ends it. -/
def atEnd (s : Text) : Bool := decide (s = [] ∨ s = ['\n'])

/-- Match a pattern against a path; the result is the values of its parameters. -/
def matchSegs (rest : Bool) : List Seg → Text → Option (List Text)
  | [], s =>
    if rest then
      (dropWord ['/'] s).bind fun t =>
        if atEnd (t.dropWhile (· != '\n')) then some [t.takeWhile (· != '\n')] else none
    else if atEnd s then some [] else none
  | .lit w :: p, s => (dropWord ('/' :: w) s).bind (matchSegs rest p)
  | .param :: p, s =>
    (dropWord ['/'] s).bind fun t =>
      if t.takeWhile (· != '/') = [] then none
      else (matchSegs rest p (t.dropWhile (· != '/'))).map (t.takeWhile (· != '/') :: ·)

/-- Match a pattern against a path. -/
def Pattern.captures (p : Pattern) (path : Text) : Option (List Text) :=
  matchSegs p.rest p.segs path

/-! ## Path templates -/

/-- Cut a text at every `c`. -/
def splitAt (c : Char) : Text → List Text
  | [] => [[]]
  | d :: s =>
    if d = c then [] :: splitAt c s
    else
      match splitAt c s with
      | [] => [[d]]
      | w :: ws => (d :: w) :: ws

/-- A segment of a template: `{x}` is a parameter. -/
def Seg.ofText : Text → Seg
  | '{' :: _ => .param
  | w => .lit w

/-- The pattern of a path template such as `/hosts/{host_id}/api/{path:path}`. -/
def Pattern.ofTemplate (t : Text) : Pattern :=
  let words := splitAt '/' (t.drop 1)
  if ":path\x7d".toList.isSuffixOf t then ⟨(words.dropLast).map Seg.ofText, true⟩
  else ⟨words.map Seg.ofText, false⟩

example : Pattern.ofTemplate "/hosts/{host_id}/api/{path:path}".toList
    = ⟨[.lit "hosts".toList, .param, .lit "api".toList], true⟩ := by decide

/-! ## Tables of routes -/

variable {ρ : Type*}

/-- The first entry of a table that serves a request, with the values of its parameters. -/
def route (pattern : ρ → Pattern) (accepts : ρ → Bool) (path : Text) :
    List ρ → Option (ρ × List Text)
  | [] => none
  | r :: rs =>
    match (pattern r).captures path with
    | some cs => if accepts r then some (r, cs) else route pattern accepts path rs
    | none => route pattern accepts path rs

/-- The route that serves a request is in the table, accepts it and matches its path. -/
lemma route_eq_some {pattern : ρ → Pattern} {accepts : ρ → Bool} {path : Text} {rs : List ρ}
    {r : ρ} {cs : List Text} (h : route pattern accepts path rs = some (r, cs)) :
    r ∈ rs ∧ accepts r = true ∧ (pattern r).captures path = some cs := by
  induction rs with
  | nil => simp [route] at h
  | cons q rs ih =>
    rw [route] at h
    cases hq : (pattern q).captures path with
    | none =>
      simp only [hq] at h
      obtain ⟨hmem, hacc⟩ := ih h
      exact ⟨List.mem_cons_of_mem _ hmem, hacc⟩
    | some ds =>
      simp only [hq] at h
      split_ifs at h with ha
      · obtain ⟨rfl, rfl⟩ := Prod.mk.inj (Option.some.inj h)
        exact ⟨List.mem_cons_self, ha, hq⟩
      · obtain ⟨hmem, hacc⟩ := ih h
        exact ⟨List.mem_cons_of_mem _ hmem, hacc⟩

/-- A pattern's first fixed word stands at the front of every path it matches. -/
lemma prefix_of_captures {w path : Text} {p : List Seg} {rest : Bool} {cs : List Text}
    (h : (Pattern.mk (.lit w :: p) rest).captures path = some cs) : ('/' :: w) <+: path := by
  obtain ⟨t, ht, -⟩ := Option.bind_eq_some_iff.mp h
  rw [dropWord_eq_some] at ht
  exact ⟨t, ht.symm⟩

end Habeny.Lib
