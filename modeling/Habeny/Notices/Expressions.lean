import Habeny.Notices.Policy

/-!
# Licence expressions

An expression is built from names with `AND`, `OR` and parentheses, and `AND` binds tighter.  The
policy cuts its text at every `OR`, also at those in parentheses, and so reads it as if there were
no parentheses at all: it allows an expression if all names of a stretch between two `OR`s are
allowed (`allowed_text`).

It never refuses what is allowed by its meaning (`stretch_of_holds`), but it allows what is not
where a stretch reaches over parentheses: exactly the expressions in which no stretch does so are
judged by their meaning (`judged_iff`).
-/

namespace Habeny.Notices

open Habeny.Lib

/-- The name of a licence, which is no operator. -/
structure LicenseId where
  name : Text
  ne_nil : name ≠ []
  plain : (name.all fun c => !isBracket c && c != '/') = true
  ne_and : name ≠ andWord
  ne_or : name ≠ orWord

def blanks (n : ℕ) : Text := List.replicate n ' '

/-- An expression with its blanks; the index says whether there is an `OR` outside of all
parentheses, which cannot stand beside an `AND`. -/
inductive LicenseExpr : Bool → Type
  | id (name : LicenseId) : LicenseExpr false
  | paren {b : Bool} (before after : ℕ) (e : LicenseExpr b) : LicenseExpr false
  | and (before after : ℕ) (l r : LicenseExpr false) : LicenseExpr false
  | or {b b' : Bool} (before after : ℕ) (l : LicenseExpr b) (r : LicenseExpr b') : LicenseExpr true

/-- Two lists of stretches with an `AND` between them. -/
def joinEnds {α : Type} : List (List α) → List (List α) → List (List α)
  | [], ys => ys
  | [x], [] => [x]
  | [x], y :: ys => (x ++ y) :: ys
  | x :: x' :: xs, ys => x :: joinEnds (x' :: xs) ys

lemma joinEnds_cons_cons {α : Type} (a : α) {z x : List α} {zs xs ys : List (List α)}
    (h : joinEnds (z :: zs) ys = x :: xs) : joinEnds ((a :: z) :: zs) ys = (a :: x) :: xs := by
  cases zs with
  | nil =>
    cases ys with
    | nil =>
      rw [joinEnds, List.cons.injEq] at h
      rw [joinEnds, h.1, h.2]
    | cons y ys =>
      rw [joinEnds, List.cons.injEq] at h
      rw [joinEnds, List.cons_append, h.1, h.2]
  | cons z' zs =>
    rw [joinEnds, List.cons.injEq] at h
    rw [joinEnds, h.1, h.2]

/-- If both lists have a stretch of a kind, so has the joined list: either one that was not joined,
or the two ends. -/
lemma any_joinEnds {α : Type} {ok : α → Bool} {xs ys : List (List α)}
    (hx : (xs.any fun l => l.all ok) = true) (hy : (ys.any fun l => l.all ok) = true) :
    ((joinEnds xs ys).any fun l => l.all ok) = true := by
  induction xs with
  | nil => exact hy
  | cons x xs ih =>
    cases xs with
    | nil =>
      rw [List.any_cons, List.any_nil, Bool.or_false] at hx
      cases ys with
      | nil => exact absurd hy (by simp)
      | cons y ys =>
        rw [List.any_cons, Bool.or_eq_true] at hy
        rw [joinEnds, List.any_cons, List.all_append, hx, Bool.true_and, Bool.or_eq_true]
        exact hy
    | cons x' xs =>
      rw [List.any_cons, Bool.or_eq_true] at hx
      rw [joinEnds, List.any_cons, Bool.or_eq_true]
      exact hx.imp_right ih

namespace LicenseExpr

def text {b : Bool} : LicenseExpr b → Text
  | .id i => i.name
  | .paren before after e => '(' :: blanks before ++ e.text ++ blanks after ++ [')']
  | .and before after l r => l.text ++ blanks before ++ spaced andWord ++ blanks after ++ r.text
  | .or before after l r => l.text ++ blanks before ++ spaced orWord ++ blanks after ++ r.text

/-- What the expression means, when it is known which licences hold. -/
def holds {b : Bool} (ok : LicenseId → Bool) : LicenseExpr b → Bool
  | .id i => ok i
  | .paren _ _ e => e.holds ok
  | .and _ _ l r => l.holds ok && r.holds ok
  | .or _ _ l r => l.holds ok || r.holds ok

/-- The names between two `OR`s of the text, whether they are in parentheses or not. -/
def stretches {b : Bool} : LicenseExpr b → List (List LicenseId)
  | .id i => [[i]]
  | .paren _ _ e => e.stretches
  | .and _ _ l r => joinEnds l.stretches r.stretches
  | .or _ _ l r => l.stretches ++ r.stretches

end LicenseExpr

/-! ## Chains

The text without regard to parentheses: names with brackets and blanks around them, and an
operator between two of them. -/

inductive Op where
  | and
  | or
  deriving DecidableEq

def Op.word : Op → Text
  | .and => andWord
  | .or => orWord

/-- A name with what stands between it and the operators. -/
structure Piece where
  pre : Text
  id : LicenseId
  post : Text
  pre_mem : ∀ c ∈ pre, c = ' ' ∨ c = '('
  post_mem : ∀ c ∈ post, c = ' ' ∨ c = ')'

def Piece.text (p : Piece) : Text := p.pre ++ p.id.name ++ p.post

/-- A word before a blank does not stand at the beginning of another word. -/
lemma not_word_begin {w name u : Text} (hname : ' ' ∉ name) (hu : ∀ c ∈ u.head?, c ∉ w)
    (hne : name ≠ w) : ¬w ++ [' '] <+: name ++ u := by
  induction w generalizing name with
  | nil =>
    cases name with
    | nil => exact absurd rfl hne
    | cons a name =>
      intro hbegin
      rw [List.nil_append, List.cons_append, List.cons_prefix_cons] at hbegin
      exact hname (hbegin.1 ▸ List.mem_cons_self)
  | cons x w ih =>
    cases name with
    | nil =>
      intro hbegin
      cases u with
      | nil => exact absurd (List.prefix_nil.mp hbegin) (List.cons_ne_nil _ _)
      | cons a u =>
        rw [List.cons_append, List.nil_append, List.cons_prefix_cons] at hbegin
        exact hu a rfl (hbegin.1 ▸ List.mem_cons_self)
    | cons a name =>
      intro hbegin
      rw [List.cons_append, List.cons_append, List.cons_prefix_cons] at hbegin
      refine ih (fun h => hname (List.mem_cons_of_mem _ h))
        (fun c hc h => hu c hc (List.mem_cons_of_mem _ h)) (fun h => hne ?_) hbegin.2
      rw [← hbegin.1, h]

/-- A nonempty end of two texts begins in the one or in the other. -/
lemma suffix_append {a b t : Text} {c : Char} (h : c :: t <:+ a ++ b) :
    c :: t <:+ b ∨ ∃ a', c :: a' <:+ a ∧ t = a' ++ b := by
  obtain ⟨s, hs⟩ := h
  rcases List.append_eq_append_iff.mp hs with ⟨d, ha, hb⟩ | ⟨d, ha, hb⟩
  · cases d with
    | nil => exact .inl ⟨[], hb⟩
    | cons x d =>
      rw [List.cons_append, List.cons.injEq] at hb
      exact .inr ⟨d, ⟨s, by rw [ha, hb.1]⟩, hb.2⟩
  · exact .inl ⟨d, hb.symm⟩

lemma Op.bracket_notMem (o : Op) {c : Char} (hc : c = ' ' ∨ c = '(' ∨ c = ')') : c ∉ o.word := by
  cases o <;> rcases hc with rfl | rfl | rfl <;> decide

lemma Op.ne_word (o : Op) (i : LicenseId) : i.name ≠ o.word := by
  cases o with
  | and => exact i.ne_and
  | or => exact i.ne_or

lemma Op.word_injective {o o' : Op} (h : o ≠ o') : o.word ≠ o'.word := by
  cases o <;> cases o' <;> first | exact absurd rfl h | decide

lemma LicenseId.not_bracket (i : LicenseId) {c : Char} (hc : c ∈ i.name) : isBracket c = false := by
  have hplain := List.all_eq_true.mp i.plain c hc
  rw [Bool.and_eq_true, Bool.not_eq_true'] at hplain
  exact hplain.1

lemma LicenseId.blank_notMem (i : LicenseId) : ' ' ∉ i.name :=
  fun h => absurd (i.not_bracket h) (by decide)

/-- A name alone is compared with the names that the policy knows. -/
lemma LicenseId.allowed_name (ecosystem : Text) (i : LicenseId) :
    allowed ecosystem i.name = allowedAlone ecosystem i.name := by
  have hbrackets : stripBrackets i.name = i.name := by
    have hstrip := @stripBrackets_append [] i.name [] (by simp) (by simp)
      (fun c hc => i.not_bracket (List.mem_of_head? hc))
      (fun c hc => i.not_bracket (List.mem_of_getLast? hc)) i.ne_nil
    rwa [List.nil_append, List.append_nil] at hstrip
  have hword : ∀ w, ¬spaced w <:+: i.name :=
    fun w hw => i.blank_notMem (hw.subset List.mem_cons_self)
  rw [allowed_eq, hbrackets, if_neg (hword _), if_neg (hword _), if_neg (hword _)]

lemma LicenseId.head_append (i : LicenseId) (s : Text) :
    ∀ x ∈ (i.name ++ s).head?, isBracket x = false := by
  intro x hx
  obtain ⟨a, name, hname⟩ := List.exists_cons_of_ne_nil i.ne_nil
  rw [hname] at hx
  exact i.not_bracket (by rw [hname, ← Option.some.inj hx]; exact List.mem_cons_self)

lemma LicenseId.getLast_append (i : LicenseId) (s : Text) :
    ∀ x ∈ (s ++ i.name).getLast?, isBracket x = false := by
  intro x hx
  rw [List.getLast?_append_of_ne_nil _ i.ne_nil] at hx
  exact i.not_bracket (List.mem_of_getLast? hx)

namespace Piece

variable (p : Piece) (o : Op) {s : Text}

def addPre (s : Text) (hs : ∀ c ∈ s, c = ' ' ∨ c = '(') : Piece where
  pre := s ++ p.pre
  id := p.id
  post := p.post
  pre_mem := fun c hc => (List.mem_append.mp hc).elim (hs c) (p.pre_mem c)
  post_mem := p.post_mem

def addPost (s : Text) (hs : ∀ c ∈ s, c = ' ' ∨ c = ')') : Piece where
  pre := p.pre
  id := p.id
  post := p.post ++ s
  pre_mem := p.pre_mem
  post_mem := fun c hc => (List.mem_append.mp hc).elim (p.post_mem c) (hs c)

lemma text_addPre (s : Text) (hs : ∀ c ∈ s, c = ' ' ∨ c = '(') :
    (p.addPre s hs).text = s ++ p.text := by
  simp [text, addPre]

lemma text_addPost (s : Text) (hs : ∀ c ∈ s, c = ' ' ∨ c = ')') :
    (p.addPost s hs).text = p.text ++ s := by
  simp [text, addPost]

def dropPre : Piece where
  pre := []
  id := p.id
  post := p.post
  pre_mem := fun _ h => absurd h List.not_mem_nil
  post_mem := p.post_mem

def dropPost : Piece where
  pre := p.pre
  id := p.id
  post := []
  pre_mem := p.pre_mem
  post_mem := fun _ h => absurd h List.not_mem_nil

lemma text_dropPre : p.text = p.pre ++ p.dropPre.text := by
  simp [text, dropPre]

lemma text_dropPost : p.text = p.dropPost.text ++ p.post := by
  simp [text, dropPost]

lemma head_post (hs : ∀ x ∈ s.head?, x = ' ') : ∀ c ∈ (p.post ++ s).head?, c ∉ o.word := by
  intro c hc
  refine o.bracket_notMem ?_
  cases hpost : p.post with
  | nil =>
    rw [hpost] at hc
    exact .inl (hs c hc)
  | cons a post =>
    rw [hpost] at hc
    have hmem := p.post_mem a (hpost ▸ List.mem_cons_self)
    rw [← Option.some.inj hc]
    exact hmem.imp_right .inr

/-- No operator stands at the beginning of a piece. -/
lemma not_begin (hs : ∀ x ∈ s.head?, x = ' ') : ¬o.word ++ [' '] <+: p.text ++ s := by
  rw [text, List.append_assoc, List.append_assoc]
  cases hpre : p.pre with
  | nil =>
    rw [List.nil_append]
    exact not_word_begin p.id.blank_notMem (p.head_post o hs) (o.ne_word p.id)
  | cons a pre =>
    refine @not_word_begin o.word [] _ List.not_mem_nil (fun c hc => ?_) (by cases o <;> decide)
    have hmem := p.pre_mem a (hpre ▸ List.mem_cons_self)
    rw [← Option.some.inj hc]
    exact o.bracket_notMem (hmem.imp_right .inl)

/-- A piece is not cut. -/
lemma splitText_append (hs : ∀ x ∈ s.head?, x = ' ') :
    splitText (spaced o.word) (p.text ++ s) =
      prependFirst p.text (splitText (spaced o.word) s) := by
  refine Lib.splitText_append fun t ht hsuffix hbegin => ?_
  obtain ⟨a, t, rfl⟩ := List.exists_cons_of_ne_nil ht
  rw [spaced, List.cons_append, List.cons_append, List.cons_prefix_cons] at hbegin
  obtain ⟨rfl, hbegin⟩ := hbegin
  rw [text, List.append_assoc] at hsuffix
  rcases suffix_append hsuffix with hsuffix | ⟨pre, hpre, rfl⟩
  · rcases suffix_append hsuffix with hpost | ⟨name, hname, -⟩
    · -- behind the name there are only brackets
      refine @not_word_begin o.word [] _ List.not_mem_nil (fun c hc => ?_)
        (by cases o <;> decide) hbegin
      refine o.bracket_notMem ?_
      cases t with
      | nil => exact .inl (hs c hc)
      | cons b t =>
        rw [← Option.some.inj hc]
        exact (p.post_mem b (hpost.subset (by simp))).imp_right .inr
    · exact p.id.blank_notMem (hname.subset List.mem_cons_self)
  · have hmem : ∀ c ∈ pre, c = ' ' ∨ c = '(' :=
      fun c hc => p.pre_mem c (hpre.subset (List.mem_cons_of_mem _ hc))
    rw [← List.append_assoc pre] at hbegin
    exact not_begin ⟨pre, p.id, p.post, hmem, p.post_mem⟩ o hs hbegin

end Piece

inductive Chain where
  | last (p : Piece)
  | cons (p : Piece) (o : Op) (rest : Chain)

namespace Chain

def text : Chain → Text
  | last p => p.text
  | cons p o rest => p.text ++ spaced o.word ++ rest.text

def append : Chain → Op → Chain → Chain
  | last p, o, d => cons p o d
  | cons p o' rest, o, d => cons p o' (rest.append o d)

def onFirst (f : Piece → Piece) : Chain → Chain
  | last p => last (f p)
  | cons p o rest => cons (f p) o rest

def onLast (f : Piece → Piece) : Chain → Chain
  | last p => last (f p)
  | cons p o rest => cons p o (rest.onLast f)

/-- The pieces between two operators of a kind, the other operators left in them. -/
def cut (o : Op) : Chain → List Chain
  | last p => [last p]
  | cons p o' rest =>
    if o' = o then last p :: rest.cut o
    else match rest.cut o with
      | [] => []
      | d :: ds => cons p o' d :: ds

def ids : Chain → List LicenseId
  | last p => [p.id]
  | cons p _ rest => p.id :: rest.ids

/-- The names of each stretch between two `OR`s. -/
def stretches (c : Chain) : List (List LicenseId) := (c.cut .or).map ids

lemma cut_ne_nil (o : Op) (c : Chain) : c.cut o ≠ [] := by
  cases c with
  | last p => exact List.cons_ne_nil _ _
  | cons p o' rest =>
    rw [cut]
    split_ifs
    · exact List.cons_ne_nil _ _
    · have hrest := cut_ne_nil o rest
      cases hcut : rest.cut o with
      | nil => exact absurd hcut hrest
      | cons d ds => exact List.cons_ne_nil _ _

lemma cut_cons_self (o : Op) (p : Piece) (rest : Chain) :
    (cons p o rest).cut o = last p :: rest.cut o := if_pos rfl

lemma exists_cut_cons_of_ne {o o' : Op} (h : o' ≠ o) (p : Piece) (rest : Chain) :
    ∃ d ds, rest.cut o = d :: ds ∧ (cons p o' rest).cut o = cons p o' d :: ds := by
  cases hcut : rest.cut o with
  | nil => exact absurd hcut (cut_ne_nil o rest)
  | cons d ds => exact ⟨d, ds, rfl, by rw [cut, if_neg h, hcut]⟩

lemma ids_append (c : Chain) (o : Op) (d : Chain) : (c.append o d).ids = c.ids ++ d.ids := by
  induction c with
  | last p => rfl
  | cons p o' rest ih => simp only [append, ids, ih, List.cons_append]

lemma text_append (c : Chain) (o : Op) (d : Chain) :
    (c.append o d).text = c.text ++ spaced o.word ++ d.text := by
  induction c with
  | last p => rfl
  | cons p o' rest ih => simp only [append, text, ih, List.append_assoc]

lemma text_onFirst {f : Piece → Piece} {s : Text} (hf : ∀ p, (f p).text = s ++ p.text) (c : Chain) :
    (c.onFirst f).text = s ++ c.text := by
  cases c with
  | last p => exact hf p
  | cons p o rest => simp only [onFirst, text, hf, List.append_assoc]

lemma text_onLast {f : Piece → Piece} {s : Text} (hf : ∀ p, (f p).text = p.text ++ s) (c : Chain) :
    (c.onLast f).text = c.text ++ s := by
  induction c with
  | last p => exact hf p
  | cons p o rest ih => simp only [onLast, text, ih, List.append_assoc]

/-! ### Stretches -/

lemma stretches_cons_or (p : Piece) (rest : Chain) :
    (cons p .or rest).stretches = [p.id] :: rest.stretches := by
  rw [stretches, cut_cons_self]
  rfl

lemma exists_stretches_cons_and (p : Piece) (rest : Chain) : ∃ x xs,
    rest.stretches = x :: xs ∧ (cons p .and rest).stretches = (p.id :: x) :: xs := by
  obtain ⟨d, ds, hrest, hcons⟩ := @exists_cut_cons_of_ne .or .and (by decide) p rest
  exact ⟨d.ids, ds.map ids, by rw [stretches, hrest]; rfl, by rw [stretches, hcons]; rfl⟩

lemma stretches_append_or (c d : Chain) :
    (c.append .or d).stretches = c.stretches ++ d.stretches := by
  induction c with
  | last p => exact stretches_cons_or p d
  | cons p o rest ih =>
    cases o with
    | or => rw [append, stretches_cons_or, ih, stretches_cons_or, List.cons_append]
    | and =>
      obtain ⟨x, xs, hx, hcons⟩ := exists_stretches_cons_and p (rest.append .or d)
      obtain ⟨y, ys, hy, hcons'⟩ := exists_stretches_cons_and p rest
      rw [ih, hy, List.cons_append, List.cons.injEq] at hx
      rw [append, hcons, hcons', ← hx.1, ← hx.2, List.cons_append]

lemma stretches_append_and (c d : Chain) :
    (c.append .and d).stretches = joinEnds c.stretches d.stretches := by
  induction c with
  | last p =>
    obtain ⟨x, xs, hx, hcons⟩ := exists_stretches_cons_and p d
    rw [append, hcons, hx]
    rfl
  | cons p o rest ih =>
    have hne : rest.stretches ≠ [] := fun h => cut_ne_nil .or rest (List.map_eq_nil_iff.mp h)
    obtain ⟨y, ys, hy⟩ := List.exists_cons_of_ne_nil hne
    cases o with
    | or =>
      rw [append, stretches_cons_or, ih, stretches_cons_or, hy]
      rfl
    | and =>
      obtain ⟨x, xs, hx, hcons⟩ := exists_stretches_cons_and p (rest.append .and d)
      obtain ⟨z, zs, hz, hcons'⟩ := exists_stretches_cons_and p rest
      rw [ih, hz] at hx
      rw [append, hcons, hcons', joinEnds_cons_cons p.id hx]

/-- The names are not changed by what changes only what is around them. -/
lemma stretches_onFirst {f : Piece → Piece} (hf : ∀ p, (f p).id = p.id) (c : Chain) :
    (c.onFirst f).stretches = c.stretches := by
  cases c with
  | last p => exact congrArg (fun i => [[i]]) (hf p)
  | cons p o rest =>
    cases o with
    | or => rw [onFirst, stretches_cons_or, stretches_cons_or, hf]
    | and =>
      obtain ⟨x, xs, hx, hcons⟩ := exists_stretches_cons_and p rest
      obtain ⟨y, ys, hy, hcons'⟩ := exists_stretches_cons_and (f p) rest
      rw [hx, List.cons.injEq] at hy
      rw [onFirst, hcons, hcons', hf, hy.1, hy.2]

lemma stretches_onLast {f : Piece → Piece} (hf : ∀ p, (f p).id = p.id) (c : Chain) :
    (c.onLast f).stretches = c.stretches := by
  induction c with
  | last p => exact congrArg (fun i => [[i]]) (hf p)
  | cons p o rest ih =>
    cases o with
    | or => rw [onLast, stretches_cons_or, stretches_cons_or, ih]
    | and =>
      obtain ⟨x, xs, hx, hcons⟩ := exists_stretches_cons_and p rest
      obtain ⟨y, ys, hy, hcons'⟩ := exists_stretches_cons_and p (rest.onLast f)
      rw [ih, hx, List.cons.injEq] at hy
      rw [onLast, hcons, hcons', hy.1, hy.2]

/-! ### Cutting the text -/

def first : Chain → Piece
  | last p => p
  | cons p _ _ => p

def final : Chain → Piece
  | last p => p
  | cons _ _ rest => rest.final

lemma text_eq_first (c : Chain) : ∃ s, c.text = c.first.text ++ s ∧ ∀ x ∈ s.head?, x = ' ' := by
  cases c with
  | last p => exact ⟨[], (List.append_nil _).symm, fun _ h => absurd h (by simp)⟩
  | cons p o rest =>
    refine ⟨spaced o.word ++ rest.text, List.append_assoc .., fun x hx => ?_⟩
    exact (Option.some.inj hx).symm

lemma not_begin_text (o : Op) (c : Chain) : ¬o.word ++ [' '] <+: c.text := by
  obtain ⟨s, htext, hs⟩ := text_eq_first c
  rw [htext]
  exact c.first.not_begin o hs

/-- An operator of another kind is not cut. -/
lemma splitText_other {o o' : Op} (h : o' ≠ o) (c : Chain) :
    splitText (spaced o.word) (spaced o'.word ++ c.text) =
      prependFirst (spaced o'.word) (splitText (spaced o.word) c.text) := by
  refine Lib.splitText_append fun t ht hsuffix hbegin => ?_
  obtain ⟨a, t, rfl⟩ := List.exists_cons_of_ne_nil ht
  rw [spaced, List.cons_append, List.cons_append, List.cons_prefix_cons] at hbegin
  obtain ⟨rfl, hbegin⟩ := hbegin
  rw [spaced, List.cons_append, List.suffix_cons_iff] at hsuffix
  rcases hsuffix with hwhole | hsuffix
  · rw [(List.cons.inj hwhole).2, List.append_assoc] at hbegin
    refine not_word_begin (o'.bracket_notMem (.inl rfl)) (fun x hx => ?_)
      (Op.word_injective h) hbegin
    rw [← Option.some.inj hx]
    exact o.bracket_notMem (.inl rfl)
  · rcases suffix_append hsuffix with hlast | ⟨word, hword, -⟩
    · rw [List.suffix_cons_iff] at hlast
      rcases hlast with hlast | hnil
      · rw [(List.cons.inj hlast).2] at hbegin
        exact not_begin_text o c hbegin
      · exact absurd (List.suffix_nil.mp hnil) (List.cons_ne_nil _ _)
    · exact o'.bracket_notMem (.inl rfl) (hword.subset List.mem_cons_self)

/-- **Cutting the text cuts the chain.** -/
lemma splitText_text (o : Op) (c : Chain) :
    splitText (spaced o.word) c.text = (c.cut o).map text := by
  induction c with
  | last p =>
    have hpiece := p.splitText_append o (s := []) (fun _ h => absurd h (by simp))
    rw [List.append_nil] at hpiece
    rw [text, hpiece]
    show [p.text ++ []] = [p.text]
    rw [List.append_nil]
  | cons p o' rest ih =>
    have hpiece := p.splitText_append o (s := spaced o'.word ++ rest.text)
      fun x hx => (Option.some.inj hx).symm
    rw [text, List.append_assoc, hpiece]
    by_cases ho : o' = o
    · rw [ho, spaced, List.cons_append, splitText_sep, cut_cons_self, ← List.cons_append]
      show (p.text ++ []) :: splitText (spaced o.word) rest.text = p.text :: (rest.cut o).map text
      rw [ih, List.append_nil]
    · obtain ⟨d, ds, hrest, hcons⟩ := exists_cut_cons_of_ne ho p rest
      rw [splitText_other ho rest, ih, hrest, hcons]
      show (p.text ++ (spaced o'.word ++ d.text)) :: _ = (p.text ++ spaced o'.word ++ d.text) :: _
      rw [List.append_assoc]

/-! ### Brackets at the ends -/

/-- A chain without what stands before its first name and behind its last. -/
def trim (c : Chain) : Chain := (c.onFirst Piece.dropPre).onLast Piece.dropPost

lemma text_onFirst_dropPre (c : Chain) :
    c.text = c.first.pre ++ (c.onFirst Piece.dropPre).text := by
  cases c with
  | last p => exact p.text_dropPre
  | cons p o rest => simp only [onFirst, text, first, ← List.append_assoc, ← p.text_dropPre]

lemma text_onLast_dropPost (c : Chain) :
    c.text = (c.onLast Piece.dropPost).text ++ c.final.post := by
  induction c with
  | last p => exact p.text_dropPost
  | cons p o rest ih => rw [text, ih, onLast, text, final, List.append_assoc _ _ rest.final.post]

lemma head_text {c : Chain} (h : c.first.pre = []) :
    ∀ x ∈ c.text.head?, isBracket x = false := by
  obtain ⟨s, htext, -⟩ := text_eq_first c
  rw [htext, Piece.text, h, List.nil_append, List.append_assoc]
  exact c.first.id.head_append _

lemma text_ne_nil (c : Chain) : c.text ≠ [] := by
  obtain ⟨s, htext, -⟩ := text_eq_first c
  rw [htext]
  simp [Piece.text, c.first.id.ne_nil]

lemma getLast_text {c : Chain} (h : c.final.post = []) :
    ∀ x ∈ c.text.getLast?, isBracket x = false := by
  induction c with
  | last p =>
    have hpost : p.post = [] := h
    rw [text, Piece.text, hpost, List.append_nil]
    exact p.id.getLast_append _
  | cons p o rest ih =>
    rw [text, List.getLast?_append_of_ne_nil _ (text_ne_nil rest)]
    exact ih h

lemma first_trim (c : Chain) : c.trim.first.pre = [] := by
  cases c <;> rfl

lemma final_onLast_dropPost (c : Chain) : (c.onLast Piece.dropPost).final.post = [] := by
  induction c with
  | last p => rfl
  | cons p o rest ih => exact ih

/-- **Removing the brackets at the ends trims the chain.** -/
lemma stripBrackets_text (c : Chain) : stripBrackets c.text = c.trim.text := by
  rw [text_onFirst_dropPre c, text_onLast_dropPost (c.onFirst Piece.dropPre), ← List.append_assoc]
  refine stripBrackets_append (fun x hx => ?_) (fun x hx => ?_) (head_text (first_trim c))
    (getLast_text (final_onLast_dropPost _)) (text_ne_nil _)
  · rcases c.first.pre_mem x hx with rfl | rfl <;> rfl
  · rcases (c.onFirst Piece.dropPre).final.post_mem x hx with rfl | rfl <;> rfl

lemma stretches_trim (c : Chain) : c.trim.stretches = c.stretches := by
  rw [trim, stretches_onLast (by intro p; rfl), stretches_onFirst (by intro p; rfl)]

/-! ### What is allowed -/

/-- There is no `OR` in the chain. -/
def NoOr : Chain → Prop
  | last _ => True
  | cons _ o rest => o = .and ∧ rest.NoOr

lemma cut_of_noOr {c : Chain} (h : c.NoOr) : c.cut .or = [c] := by
  induction c with
  | last p => rfl
  | cons p o rest ih => rw [cut, if_neg (by rw [h.1]; decide), ih h.2]

lemma noOr_of_mem_cut {c d : Chain} (h : d ∈ c.cut .or) : d.NoOr := by
  induction c generalizing d with
  | last p =>
    rw [List.mem_singleton.mp h]
    trivial
  | cons p o rest ih =>
    cases o with
    | or =>
      rw [cut_cons_self] at h
      rcases List.mem_cons.mp h with rfl | hrest
      · trivial
      · exact ih hrest
    | and =>
      obtain ⟨e, es, hrest, hcons⟩ :=
        @exists_cut_cons_of_ne .or .and (by decide) p rest
      rw [hcons] at h
      rcases List.mem_cons.mp h with rfl | hmem
      · exact ⟨rfl, ih (hrest ▸ List.mem_cons_self)⟩
      · exact ih (hrest ▸ List.mem_cons_of_mem _ hmem)

variable (ecosystem : Text)

/-- A name with brackets around it is judged as the name. -/
lemma allowed_last (p : Piece) : allowed ecosystem (last p).text = allowed ecosystem p.id.name := by
  rw [← allowed_stripBrackets, stripBrackets_text]
  refine congrArg _ ?_
  simp [trim, onFirst, onLast, text, Piece.text, Piece.dropPre, Piece.dropPost]

lemma all_cut_and {c : Chain} (h : c.NoOr) :
    ((c.cut .and).map text).all (allowed ecosystem) =
      c.ids.all fun i => allowed ecosystem i.name := by
  induction c with
  | last p => simp [cut, ids, allowed_last]
  | cons p o rest ih =>
    rw [h.1, cut_cons_self, List.map_cons, List.all_cons, ih h.2, allowed_last]
    rfl

lemma noOr_trim {c : Chain} (h : c.NoOr) : c.trim.NoOr := by
  have hlast : ∀ d : Chain, d.NoOr → (d.onLast Piece.dropPost).NoOr := by
    intro d hd
    induction d with
    | last p => trivial
    | cons p o rest ih => exact ⟨hd.1, ih hd.2⟩
  refine hlast _ ?_
  cases c with
  | last p => trivial
  | cons p o rest => exact h

lemma ids_trim (c : Chain) : c.trim.ids = c.ids := by
  have hlast : ∀ d : Chain, (d.onLast Piece.dropPost).ids = d.ids := by
    intro d
    induction d with
    | last p => rfl
    | cons p o rest ih => exact congrArg (List.cons p.id) ih
  rw [trim, hlast]
  cases c <;> rfl

/-- A stretch is allowed if all its names are. -/
lemma allowed_of_noOr {c : Chain} (h : c.NoOr) :
    allowed ecosystem c.text = c.ids.all fun i => allowed ecosystem i.name := by
  have hor : ¬spaced orWord <:+: stripBrackets c.text := by
    rw [stripBrackets_text]
    intro hoccurs
    have hcut := splitText_text .or c.trim
    rw [cut_of_noOr (noOr_trim h)] at hcut
    have hmem : c.trim.text ∈ splitText (spaced orWord) c.trim.text := by
      rw [show orWord = Op.or.word from rfl, hcut]
      exact List.mem_cons_self
    exact lt_irrefl _ (length_lt_of_mem_splitText hoccurs (List.cons_ne_nil _ _) hmem)
  rw [allowed_eq_all hor, stripBrackets_text, show andWord = Op.and.word from rfl, splitText_text,
    all_cut_and ecosystem (noOr_trim h), ids_trim]

/-- A chain is allowed if one of its stretches is. -/
lemma allowed_text (c : Chain) : allowed ecosystem c.text =
    c.stretches.any fun ids => ids.all fun i => allowed ecosystem i.name := by
  rw [allowed_eq_any, stripBrackets_text, show orWord = Op.or.word from rfl, splitText_text,
    ← stretches_trim, stretches, List.any_map, List.any_map]
  rw [Bool.eq_iff_iff, List.any_eq_true, List.any_eq_true]
  refine exists_congr fun d => and_congr_right fun hd => ?_
  rw [Function.comp_apply, Function.comp_apply, allowed_of_noOr ecosystem (noOr_of_mem_cut hd)]

end Chain

/-! ## Expressions as chains -/

namespace LicenseExpr

lemma blanks_mem {n : ℕ} {c : Char} (h : c ∈ blanks n) : c = ' ' := List.eq_of_mem_replicate h

def openPre (before : ℕ) : Text := '(' :: blanks before

def closePost (after : ℕ) : Text := blanks after ++ [')']

lemma openPre_mem {before : ℕ} : ∀ c ∈ openPre before, c = ' ' ∨ c = '(' := by
  intro c hc
  rcases List.mem_cons.mp hc with rfl | hblank
  · exact .inr rfl
  · exact .inl (blanks_mem hblank)

lemma closePost_mem {after : ℕ} : ∀ c ∈ closePost after, c = ' ' ∨ c = ')' := by
  intro c hc
  rcases List.mem_append.mp hc with hblank | hclose
  · exact .inl (blanks_mem hblank)
  · exact .inr (List.mem_singleton.mp hclose)

/-- The chains on both sides of an operator, with the blanks around it. -/
def join (o : Op) (before after : ℕ) (c d : Chain) : Chain :=
  (c.onLast fun p => p.addPost (blanks before) fun _ h => .inl (blanks_mem h)).append o
    (d.onFirst fun p => p.addPre (blanks after) fun _ h => .inl (blanks_mem h))

def chain {b : Bool} : LicenseExpr b → Chain
  | .id i => .last ⟨[], i, [], fun _ h => absurd h List.not_mem_nil,
      fun _ h => absurd h List.not_mem_nil⟩
  | .paren before after e =>
    (e.chain.onFirst fun p => p.addPre (openPre before) openPre_mem).onLast
      fun p => p.addPost (closePost after) closePost_mem
  | .and before after l r => join .and before after l.chain r.chain
  | .or before after l r => join .or before after l.chain r.chain

lemma text_join (o : Op) (before after : ℕ) (c d : Chain) : (join o before after c d).text =
    c.text ++ blanks before ++ spaced o.word ++ blanks after ++ d.text := by
  rw [join, Chain.text_append, Chain.text_onLast fun p => p.text_addPost _ _,
    Chain.text_onFirst fun p => p.text_addPre _ _, List.append_assoc _ (blanks after)]

lemma text_chain {b : Bool} (e : LicenseExpr b) : e.chain.text = e.text := by
  induction e with
  | id i => simp [chain, text, Chain.text, Piece.text]
  | paren before after e ih =>
    rw [chain, Chain.text_onLast fun p => p.text_addPost _ _,
      Chain.text_onFirst fun p => p.text_addPre _ _, ih, text, closePost, openPre]
    simp only [List.append_assoc]
  | and before after l r ihl ihr => rw [chain, text_join, ihl, ihr]; rfl
  | or before after l r ihl ihr => rw [chain, text_join, ihl, ihr]; rfl

lemma stretches_chain {b : Bool} (e : LicenseExpr b) : e.chain.stretches = e.stretches := by
  induction e with
  | id i => rfl
  | paren before after e ih =>
    rw [chain, Chain.stretches_onLast (by intro p; rfl), Chain.stretches_onFirst (by intro p; rfl),
      ih]
    rfl
  | and before after l r ihl ihr =>
    rw [chain, join, Chain.stretches_append_and, Chain.stretches_onLast (by intro p; rfl),
      Chain.stretches_onFirst (by intro p; rfl), ihl, ihr]
    rfl
  | or before after l r ihl ihr =>
    rw [chain, join, Chain.stretches_append_or, Chain.stretches_onLast (by intro p; rfl),
      Chain.stretches_onFirst (by intro p; rfl), ihl, ihr]
    rfl

/-- **An expression is allowed if all names of one of its stretches are.** -/
lemma allowed_text (ecosystem : Text) {b : Bool} (e : LicenseExpr b) :
    allowed ecosystem e.text =
      e.stretches.any fun ids => ids.all fun i => allowed ecosystem i.name := by
  rw [← text_chain, Chain.allowed_text, stretches_chain]

/-! ## Meaning -/

variable {ok : LicenseId → Bool}

/-- What holds by its meaning has a stretch in which all names hold. -/
lemma stretch_of_holds {b : Bool} {e : LicenseExpr b} (h : e.holds ok = true) :
    (e.stretches.any fun ids => ids.all ok) = true := by
  induction e with
  | id i => simpa [holds, stretches] using h
  | paren before after e ih => exact ih h
  | and before after l r ihl ihr =>
    rw [holds, Bool.and_eq_true] at h
    exact any_joinEnds (ihl h.1) (ihr h.2)
  | or before after l r ihl ihr =>
    rw [holds, Bool.or_eq_true] at h
    rw [stretches, List.any_append, Bool.or_eq_true]
    exact h.imp ihl ihr

/-- Every stretch whose names are all allowed stands for an expression that holds: no stretch
reaches over parentheses that are needed. -/
def StretchesHold {b : Bool} (ok : LicenseId → Bool) (e : LicenseExpr b) : Prop :=
  (∃ ids ∈ e.stretches, ∀ i ∈ ids, ok i = true) → e.holds ok = true

/-- **Expressions are judged by their meaning** exactly if no stretch of allowed names misleads. -/
theorem judged_iff (ecosystem : Text) {b : Bool} (e : LicenseExpr b) :
    allowed ecosystem e.text = e.holds (fun i => allowed ecosystem i.name) ↔
      e.StretchesHold fun i => allowed ecosystem i.name := by
  have hany : (e.stretches.any fun ids => ids.all fun i => allowed ecosystem i.name) = true ↔
      ∃ ids ∈ e.stretches, ∀ i ∈ ids, allowed ecosystem i.name = true := by
    simp only [List.any_eq_true, List.all_eq_true]
  rw [allowed_text, Bool.eq_iff_iff, hany]
  constructor
  · exact fun h => h.mp
  · exact fun h => ⟨h, fun hholds => hany.mp (stretch_of_holds hholds)⟩

end LicenseExpr

/-! ## An expression that is judged by another meaning -/

def mit : LicenseId where
  name := "MIT".toList
  ne_nil := by decide
  plain := by decide
  ne_and := by decide
  ne_or := by decide

def bsd : LicenseId where
  name := "BSD-3-Clause".toList
  ne_nil := by decide
  plain := by decide
  ne_and := by decide
  ne_or := by decide

def gpl : LicenseId where
  name := "GPL-3.0-only".toList
  ne_nil := by decide
  plain := by decide
  ne_and := by decide
  ne_or := by decide

/-- A choice of two licences, and a third one beside it that is not allowed. -/
def choiceAndGpl : LicenseExpr false :=
  .and 0 0 (.paren 0 0 (.or 0 0 (.id mit) (.id bsd))) (.id gpl)

/-- `(MIT OR BSD-3-Clause) AND GPL-3.0-only` is allowed, since `MIT` is. -/
theorem forbidden_allowed : choiceAndGpl.text = "(MIT OR BSD-3-Clause) AND GPL-3.0-only".toList ∧
    allowed "npm".toList choiceAndGpl.text ≠
      choiceAndGpl.holds fun i => allowed "npm".toList i.name := by
  refine ⟨by decide, ?_⟩
  rw [LicenseExpr.allowed_text]
  simp only [choiceAndGpl, LicenseExpr.holds, LicenseExpr.stretches, LicenseId.allowed_name]
  decide +kernel

end Habeny.Notices
