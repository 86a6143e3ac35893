import Habeny.Lib.Dict
import Habeny.Lib.Lines
import Mathlib.Data.List.Infix

/-!
# Trees of files

A tree is a finite map from paths to directories and files, in which all that stands above an
entry is a directory.  A path is the list of the names on the way, and its text has a slash
between them.

Entries are put one after the other, as an archive is extracted: directories that are missing
above are made, a directory stays when it is put again, a file is overwritten, and nothing else
fits where something is.  Putting all entries of a tree, in any order, gives the tree.
-/

namespace Habeny.Lib

open CodeText

/-! ## Names and paths -/

def slash : ℕ := 47

/-- What can be the name of an entry in a directory. -/
def IsEntryName (t : CodeText) : Prop :=
  t ≠ [] ∧ t ≠ lit "." ∧ t ≠ lit ".." ∧ slash ∉ t ∧ 0 ∉ t

instance : DecidablePred IsEntryName := fun _ => inferInstanceAs (Decidable (_ ∧ _))

abbrev EntryName := { t : CodeText // IsEntryName t }

def EntryName.ofText (t : CodeText) : Option EntryName :=
  if h : IsEntryName t then some ⟨t, h⟩ else none

lemma EntryName.ofText_val (x : EntryName) : EntryName.ofText x.val = some x := dif_pos x.property

/-- The names on the way from the root of a tree. -/
abbrev Path := List EntryName

namespace Path

def text (p : Path) : CodeText := [slash].intercalate (p.map Subtype.val)

/-- The parts of a text between slashes, where a single dot does not count. -/
def parts (t : CodeText) : List CodeText :=
  (t.splitOn slash).filter fun part => decide (part ≠ [] ∧ part ≠ lit ".")

/-- The path along some names. -/
def ofParts : List CodeText → Option Path
  | [] => some []
  | part :: parts => (EntryName.ofText part).bind fun x => (ofParts parts).map fun p => x :: p

lemma ofParts_map_val (p : Path) : ofParts (p.map Subtype.val) = some p := by
  induction p with
  | nil => rfl
  | cons x p ih =>
    rw [List.map_cons, ofParts, EntryName.ofText_val, ih]
    rfl

lemma splitOn_text {p : Path} (h : p ≠ []) : (text p).splitOn slash = p.map Subtype.val := by
  refine List.splitOn_intercalate slash ?_ fun hnil => h (List.map_eq_nil_iff.mp hnil)
  intro part hpart
  obtain ⟨x, -, rfl⟩ := List.mem_map.mp hpart
  exact x.property.2.2.2.1

/-- **The parts of a path's text are its names.** -/
theorem parts_text {p : Path} (h : p ≠ []) : parts (text p) = p.map Subtype.val := by
  rw [parts, splitOn_text h]
  refine List.filter_eq_self.mpr fun part hpart => ?_
  obtain ⟨x, -, rfl⟩ := List.mem_map.mp hpart
  exact decide_eq_true ⟨x.property.1, x.property.2.1⟩

lemma head?_text {p : Path} (h : p ≠ []) : (text p).head? ≠ some slash := by
  intro hhead
  cases p with
  | nil => exact h rfl
  | cons x p =>
    obtain ⟨c, t, hx⟩ := List.exists_cons_of_ne_nil x.property.1
    have htext : (text (x :: p)).head? = some c := by
      cases p <;> simp [text, List.intercalate, hx]
    rw [htext, Option.some.injEq] at hhead
    exact x.property.2.2.2.1 (by rw [hx, hhead]; exact List.mem_cons_self)

lemma text_injective {p q : Path} (hp : p ≠ []) (hq : q ≠ []) (h : text p = text q) : p = q := by
  have hparts := parts_text hp
  rw [h, parts_text hq] at hparts
  exact (List.map_injective_iff.mpr Subtype.val_injective hparts).symm

/-- The paths above a path. -/
def above (p : Path) : List Path := p.inits.filter fun q => decide (q ≠ p)

lemma mem_above {p q : Path} : q ∈ above p ↔ q <+: p ∧ q ≠ p := by
  rw [above, List.mem_filter, List.mem_inits, decide_eq_true_eq]

end Path

/-! ## Trees -/

/-- What a path leads to. -/
inductive Node (C : Type) where
  | directory
  | file (content : C)
  deriving DecidableEq

variable {C : Type}

/-- Whether a node can be put where there is this one already, or none. -/
def Node.fits : Option (Node C) → Node C → Bool
  | none, _ => true
  | some .directory, .directory => true
  | some (.file _), .file _ => true
  | _, _ => false

lemma Node.fits_self (n : Node C) : Node.fits (some n) n = true := by
  cases n <;> rfl

structure FileTree (C : Type) where
  nodes : Dict Path (Node C)
  root : nodes.get [] = some .directory
  closed : ∀ {p q : Path}, (nodes.get p).isSome = true → q <+: p → q ≠ p →
    nodes.get q = some .directory

namespace FileTree

def get (t : FileTree C) (p : Path) : Option (Node C) := t.nodes.get p

lemma get_root (t : FileTree C) : t.get [] = some .directory := t.root

lemma get_above {t : FileTree C} {p q : Path} {n : Node C} (h : t.get p = some n) (hq : q <+: p)
    (hne : q ≠ p) : t.get q = some .directory :=
  t.closed (by rw [← get, h]; rfl) hq hne

/-- The content of a file, where there is one. -/
def file (t : FileTree C) (p : Path) : Option C :=
  match t.get p with
  | some (.file c) => some c
  | _ => none

lemma file_eq_some_iff {t : FileTree C} {p : Path} {c : C} :
    t.file p = some c ↔ t.get p = some (.file c) := by
  rw [file]
  split
  · next c' hc => rw [hc]; simp
  · next hno => exact ⟨fun h => absurd h (by simp), fun h => absurd h (hno c)⟩

lemma file_congr {t u : FileTree C} (h : ∀ p, u.get p = t.get p) (p : Path) :
    u.file p = t.file p := by
  rw [file, file, h]

lemma file_root (t : FileTree C) : t.file [] = none := by
  rw [file, t.get_root]

/-- `Path.is_dir` -/
def isDir (t : FileTree C) (p : Path) : Bool :=
  match t.get p with
  | some .directory => true
  | _ => false

lemma isDir_iff {t : FileTree C} {p : Path} : t.isDir p = true ↔ t.get p = some .directory := by
  rw [isDir]
  split
  · next h => simp [h]
  · next hno => exact ⟨fun h => absurd h (by simp), fun h => absurd h hno⟩

/-- All entries, the root among them. -/
def listing (t : FileTree C) : List (Path × Node C) := t.nodes.items

lemma mem_listing {t : FileTree C} {e : Path × Node C} : e ∈ t.listing ↔ t.get e.1 = some e.2 :=
  Dict.mem_items

/-- The files with their paths. -/
def files (t : FileTree C) : List (Path × C) :=
  t.nodes.keys.filterMap fun p => (t.file p).map fun c => (p, c)

lemma mem_files {t : FileTree C} {e : Path × C} : e ∈ t.files ↔ t.file e.1 = some e.2 := by
  simp only [files, List.mem_filterMap, Option.map_eq_some_iff]
  constructor
  · rintro ⟨p, -, c, hfile, rfl⟩
    exact hfile
  · exact fun hfile =>
      ⟨e.1, Dict.mem_keys_of_get (file_eq_some_iff.mp hfile), e.2, hfile, rfl⟩

lemma nodup_files (t : FileTree C) : (t.files.map Prod.fst).Nodup := by
  rw [files, List.map_filterMap]
  refine t.nodes.nodup.filterMap fun p p' q hp hp' => ?_
  rw [Option.mem_def, Option.map_map, Option.map_eq_some_iff] at hp hp'
  obtain ⟨_, _, rfl⟩ := hp
  obtain ⟨_, _, h⟩ := hp'
  exact h.symm

/-! ## Putting entries -/

/-- The tree with only its root. -/
def empty : FileTree C where
  nodes := Dict.empty.set [] .directory
  root := Dict.get_set_self
  closed := fun {p q} hp hq hne => by
    by_cases h : p = []
    · subst h
      exact absurd (List.prefix_nil.mp hq) hne
    · rw [Dict.get_set_of_ne h] at hp
      exact absurd hp (by simp)

lemma get_empty (p : Path) :
    (empty : FileTree C).get p = if p = [] then some .directory else none := by
  by_cases h : p = []
  · rw [if_pos h, h]
    exact Dict.get_set_self
  · rw [if_neg h]
    exact Dict.get_set_of_ne h

/-- The nodes once a node is put, with directories above it. -/
def putNodes (d : Dict Path (Node C)) (p : Path) (n : Node C) : Dict Path (Node C) :=
  ((Path.above p).foldl (fun d q => d.set q .directory) d).set p n

lemma get_putNodes (d : Dict Path (Node C)) (p : Path) (n : Node C) (q : Path) :
    (putNodes d p n).get q =
      if q = p then some n else if q <+: p then some .directory else d.get q := by
  rw [putNodes]
  by_cases hq : q = p
  · rw [if_pos hq, hq, Dict.get_set_self]
  · rw [if_neg hq, Dict.get_set_of_ne hq, Dict.get_setAll]
    by_cases hpre : q <+: p
    · rw [if_pos (Path.mem_above.mpr ⟨hpre, hq⟩), if_pos hpre]
    · rw [if_neg fun h => hpre (Path.mem_above.mp h).1, if_neg hpre]

/-- Nothing is in the way of a node. -/
def Fits (t : FileTree C) (p : Path) (n : Node C) : Prop :=
  (∀ q ∈ Path.above p, Node.fits (t.get q) .directory = true) ∧ Node.fits (t.get p) n = true

instance (t : FileTree C) (p : Path) (n : Node C) : Decidable (t.Fits p n) :=
  inferInstanceAs (Decidable (_ ∧ _))

/-- Put a node, where nothing is in its way. -/
def put (t : FileTree C) (p : Path) (n : Node C) : Option (FileTree C) :=
  if h : t.Fits p n then
    some {
      nodes := putNodes t.nodes p n
      root := by
        rw [get_putNodes, if_pos List.nil_prefix]
        by_cases hp : [] = p
        · subst hp
          rw [if_pos rfl]
          have hroot := h.2
          rw [t.get_root] at hroot
          cases n with
          | directory => rfl
          | file c => exact absurd hroot (by simp [Node.fits])
        · rw [if_neg hp]
      closed := fun {r q} hr hq hne => by
        by_cases hrp : r <+: p
        · -- all that is above the node put is a directory
          have hqp : q <+: p := hq.trans hrp
          have hneq : q ≠ p := by
            rintro rfl
            exact hne (hq.eq_of_length (le_antisymm hq.length_le hrp.length_le))
          rw [get_putNodes, if_neg hneq, if_pos hqp]
        · have hrne : r ≠ p := fun heq => hrp (heq ▸ List.prefix_rfl)
          rw [get_putNodes, if_neg hrne, if_neg hrp] at hr
          have hdirectory := t.closed hr hq hne
          rw [get_putNodes]
          by_cases hqp : q = p
          · -- below the node there was an entry, so a directory fits there only
            subst hqp
            have hfits := h.2
            rw [get, hdirectory] at hfits
            rw [if_pos rfl]
            cases n with
            | directory => rfl
            | file c => exact absurd hfits (by simp [Node.fits])
          · rw [if_neg hqp]
            split_ifs
            · rfl
            · exact hdirectory }
  else none

lemma get_put {t u : FileTree C} {p : Path} {n : Node C} (h : t.put p n = some u) (q : Path) :
    u.get q = if q = p then some n else if q <+: p then some .directory else t.get q := by
  rw [put] at h
  split_ifs at h
  cases h
  exact get_putNodes t.nodes p n q

lemma put_of_fits {t : FileTree C} {p : Path} {n : Node C} (h : t.Fits p n) :
    ∃ u, t.put p n = some u := ⟨_, dif_pos h⟩

/-- Put some entries, one after the other. -/
def putAll (t : FileTree C) : List (Path × Node C) → Option (FileTree C)
  | [] => some t
  | e :: es => (t.put e.1 e.2).bind fun u => u.putAll es

/-- What is on the way to a listed entry is a directory, unless it is the entry itself. -/
def Compatible (es : List (Path × Node C)) : Prop :=
  ∀ a ∈ es, ∀ b ∈ es, a.1 <+: b.1 → a.2 = .directory ∨ a = b

/-- A node that some entries need: the root, a listed one, or a directory above one. -/
def Needed (es : List (Path × Node C)) (p : Path) (n : Node C) : Prop :=
  (p = [] ∧ n = .directory) ∨ (p, n) ∈ es ∨ n = .directory ∧ ∃ b ∈ es, p <+: b.1 ∧ p ≠ b.1

/-- Where nothing is in the way, a directory is what is needed above an entry, and the entry
where it is. -/
lemma Needed.eq_of_listed {es : List (Path × Node C)} (h : Compatible es) {b : Path × Node C}
    (hb : b ∈ es) (hroot : b.1 = [] → b.2 = .directory) {p : Path} {n : Node C}
    (hn : Needed es p n) (hp : p <+: b.1) : n = if p = b.1 then b.2 else .directory := by
  rcases hn with ⟨rfl, rfl⟩ | hmem | ⟨rfl, c, hc, hpc, hne⟩
  · split_ifs with heq
    · exact (hroot heq.symm).symm
    · rfl
  · split_ifs with heq
    · rcases h (p, n) hmem b hb hp with hdirectory | rfl
      · rcases h b hb (p, n) hmem (heq ▸ List.prefix_rfl) with hb2 | rfl
        · exact hdirectory.trans hb2.symm
        · rfl
      · rfl
    · rcases h (p, n) hmem b hb hp with hdirectory | rfl
      · exact hdirectory
      · exact absurd rfl heq
  · split_ifs with heq
    · -- the entry is above another one
      subst heq
      rcases h b hb c hc hpc with hb2 | rfl
      · exact hb2.symm
      · exact absurd rfl hne
    · rfl

/-- Putting listed entries in a tree that has only what is needed. -/
lemma putAll_spec {all : List (Path × Node C)} (h : Compatible all)
    (hroot : ∀ b ∈ all, b.1 = [] → b.2 = .directory) :
    ∀ (es : List (Path × Node C)) (t : FileTree C), (∀ e ∈ es, e ∈ all) →
      (∀ p n, t.get p = some n → Needed all p n) →
      ∃ u, t.putAll es = some u ∧ (∀ p n, u.get p = some n → Needed all p n) ∧
        (∀ e ∈ es, u.get e.1 = some e.2) ∧ ∀ p n, t.get p = some n → u.get p = some n := by
  intro es
  induction es with
  | nil =>
    intro t _ ht
    exact ⟨t, rfl, ht, fun e he => absurd he List.not_mem_nil, fun _ _ hget => hget⟩
  | cons e es ih =>
    intro t hes ht
    have he : e ∈ all := hes e List.mem_cons_self
    have hthere : ∀ p n, t.get p = some n → p <+: e.1 →
        n = if p = e.1 then e.2 else .directory :=
      fun p n hget hp => (ht p n hget).eq_of_listed h he (hroot e he) hp
    have hfits : t.Fits e.1 e.2 := by
      constructor
      · intro q hq
        obtain ⟨hpre, hne⟩ := Path.mem_above.mp hq
        cases hget : t.get q with
        | none => rfl
        | some n =>
          rw [hthere q n hget hpre, if_neg hne]
          rfl
      · cases hget : t.get e.1 with
        | none => rfl
        | some n =>
          rw [hthere e.1 n hget List.prefix_rfl, if_pos rfl]
          exact Node.fits_self e.2
    obtain ⟨u, hu⟩ := put_of_fits hfits
    have hkept : ∀ p n, t.get p = some n → u.get p = some n := by
      intro p n hget
      rw [get_put hu]
      by_cases hp : p <+: e.1
      · rw [hthere p n hget hp, if_pos hp]
        split_ifs <;> rfl
      · have hne : p ≠ e.1 := fun heq => hp (heq ▸ List.prefix_rfl)
        rw [if_neg hne, if_neg hp, hget]
    have hneeded : ∀ p n, u.get p = some n → Needed all p n := by
      intro p n hget
      rw [get_put hu] at hget
      split_ifs at hget with hpe hpre
      · cases hget
        subst hpe
        exact .inr (.inl he)
      · cases hget
        exact .inr (.inr ⟨rfl, e, he, hpre, hpe⟩)
      · exact ht p n hget
    obtain ⟨v, hv, hneeded', hput, hkept'⟩ :=
      ih u (fun b hb => hes b (List.mem_cons_of_mem e hb)) hneeded
    refine ⟨v, ?_, hneeded', ?_, fun p n hget => hkept' p n (hkept p n hget)⟩
    · rw [putAll, hu]
      exact hv
    · intro b hb
      rcases List.mem_cons.mp hb with rfl | hb
      · refine hkept' b.1 b.2 ?_
        rw [get_put hu, if_pos rfl]
      · exact hput b hb

/-! ## A directory of a tree -/

/-- The tree below a directory. -/
def sub (t : FileTree C) (r : Path) : Option (FileTree C) :=
  if h : t.isDir r = true then
    some {
      nodes := {
        get := fun q => t.get (r ++ q)
        keys := t.nodes.keys.filterMap fun p => r.isPrefixOf? p
        mem_keys := fun q => by
          rw [List.mem_filterMap, get, ← t.nodes.mem_keys]
          constructor
          · rintro ⟨p, hp, hq⟩
            rw [List.isPrefixOf?_eq_some_iff_append_eq.mp hq]
            exact hp
          · exact fun hmem => ⟨r ++ q, hmem, List.isPrefixOf?_eq_some_iff_append_eq.mpr rfl⟩
        nodup := t.nodes.nodup.filterMap fun p p' q hp hp' =>
          (List.isPrefixOf?_eq_some_iff_append_eq.mp hp).symm.trans
            (List.isPrefixOf?_eq_some_iff_append_eq.mp hp') }
      root := by simpa using isDir_iff.mp h
      closed := fun {p q} hp hq hne =>
        t.closed hp ((List.prefix_append_right_inj r).mpr hq) fun heq =>
          hne (List.append_cancel_left heq) }
  else none

lemma get_sub {t u : FileTree C} {r : Path} (h : t.sub r = some u) (p : Path) :
    u.get p = t.get (r ++ p) := by
  rw [sub] at h
  split_ifs at h
  cases h
  rfl

lemma sub_eq_some {t : FileTree C} {r : Path} (h : t.get r = some .directory) :
    ∃ u, t.sub r = some u := ⟨_, dif_pos (isDir_iff.mpr h)⟩

lemma sub_eq_none_iff {t : FileTree C} {r : Path} : t.sub r = none ↔ t.get r ≠ some .directory := by
  rw [sub]
  split_ifs with h
  · exact ⟨fun hnone => absurd hnone (by simp), fun hne => absurd (isDir_iff.mp h) hne⟩
  · exact ⟨fun _ hget => h (isDir_iff.mpr hget), fun _ => rfl⟩

/-- The tree without the entries whose name does not stay, and what is below them. -/
def restrict (stays : EntryName → Bool) (t : FileTree C) : FileTree C where
  nodes := t.nodes.filterKeys fun p => p.all stays
  root := t.root
  closed := fun {p q} hp hq hne => by
    rw [Dict.get_filterKeys] at hp
    split_ifs at hp with hstays
    · have hqstays : q.all stays = true :=
        List.all_eq_true.mpr fun x hx => List.all_eq_true.mp hstays x (hq.mem hx)
      rw [Dict.get_filterKeys, if_pos hqstays]
      exact t.closed hp hq hne
    · exact absurd hp (by simp)

lemma get_restrict (stays : EntryName → Bool) (t : FileTree C) (p : Path) :
    (t.restrict stays).get p = if p.all stays = true then t.get p else none := rfl

end FileTree

/-! ## A directory from its entries -/

/-- An entry of a directory: a file, or a directory with all below. -/
inductive Entry (C : Type) where
  | file (content : C)
  | tree (t : FileTree C)

namespace Entry

def get : Entry C → Path → Option (Node C)
  | .file c, [] => some (.file c)
  | .file _, _ :: _ => none
  | .tree t, p => t.get p

def paths : Entry C → List Path
  | .file _ => [[]]
  | .tree t => t.nodes.keys

lemma mem_paths {e : Entry C} {p : Path} : p ∈ e.paths ↔ (e.get p).isSome = true := by
  cases e with
  | file c => cases p <;> simp [paths, get]
  | tree t => exact t.nodes.mem_keys p

lemma nodup_paths (e : Entry C) : e.paths.Nodup := by
  cases e with
  | file c => exact List.nodup_singleton _
  | tree t => exact t.nodes.nodup

lemma get_above {e : Entry C} {p q : Path} (h : (e.get p).isSome = true) (hq : q <+: p)
    (hne : q ≠ p) : e.get q = some .directory := by
  cases e with
  | file c =>
    cases p with
    | nil => exact absurd (List.prefix_nil.mp hq) hne
    | cons x p => exact absurd h (by simp [get])
  | tree t => exact t.closed h hq hne

end Entry

namespace FileTree

/-- The tree of a directory with these entries. -/
def ofDict (d : Dict EntryName (Entry C)) : FileTree C where
  nodes := {
    get := fun
      | [] => some .directory
      | x :: p => (d.get x).bind fun e => e.get p
    keys := [] :: d.items.flatMap fun e => e.2.paths.map fun p => e.1 :: p
    mem_keys := fun p => by
      cases p with
      | nil => simp
      | cons x p =>
        simp only [List.mem_cons, reduceCtorEq, false_or, List.mem_flatMap, List.mem_map,
          List.cons.injEq]
        constructor
        · rintro ⟨⟨y, e⟩, he, q, hq, rfl, rfl⟩
          rw [Dict.mem_items.mp he]
          exact Entry.mem_paths.mp hq
        · intro hsome
          cases hx : d.get x with
          | none => simp [hx] at hsome
          | some e =>
            rw [hx] at hsome
            exact ⟨(x, e), Dict.mem_items.mpr hx, p, Entry.mem_paths.mpr hsome, rfl, rfl⟩
    nodup := by
      refine List.nodup_cons.mpr ⟨by simp, List.nodup_flatMap.mpr ⟨fun e _ => ?_, ?_⟩⟩
      · exact (Entry.nodup_paths e.2).map (List.cons_injective)
      · have hitems : d.items.Pairwise fun a b => a.1 ≠ b.1 := by
          have hkeys : (d.items.map Prod.fst).Nodup := d.nodup_items
          exact List.pairwise_map.mp hkeys
        refine hitems.imp fun {a b} hne => ?_
        intro p hpa hpb
        obtain ⟨q, -, rfl⟩ := List.mem_map.mp hpa
        obtain ⟨q', -, heq⟩ := List.mem_map.mp hpb
        exact hne (List.cons.inj heq).1.symm }
  root := rfl
  closed := fun {p q} hp hq hne => by
    cases q with
    | nil => rfl
    | cons x q =>
      cases p with
      | nil => exact absurd (List.prefix_nil.mp hq) (by simp)
      | cons y p =>
        obtain ⟨rfl, hqp⟩ := List.cons_prefix_cons.mp hq
        dsimp only at hp ⊢
        cases hx : d.get x with
        | none => simp [hx] at hp
        | some e =>
          rw [hx] at hp
          exact Entry.get_above hp hqp fun heq => hne (heq ▸ rfl)

@[simp] lemma get_ofDict_cons (d : Dict EntryName (Entry C)) (x : EntryName) (p : Path) :
    (ofDict d).get (x :: p) = (d.get x).bind fun e => e.get p := rfl

lemma file_ofDict_cons (d : Dict EntryName (Entry C)) (x : EntryName) (p : Path) :
    (ofDict d).file (x :: p) = (d.get x).bind fun e =>
      match e.get p with
      | some (.file c) => some c
      | _ => none := by
  rw [file, get_ofDict_cons]
  cases d.get x <;> rfl

/-! ## Extracting what was archived -/

/-- The entries of a tree under a name. -/
def listingUnder (x : EntryName) (t : FileTree C) : List (Path × Node C) :=
  t.listing.map fun e => (x :: e.1, e.2)

lemma mem_listingUnder {x : EntryName} {t : FileTree C} {e : Path × Node C} :
    e ∈ t.listingUnder x ↔ ∃ p, e.1 = x :: p ∧ t.get p = some e.2 := by
  rw [listingUnder, List.mem_map]
  constructor
  · rintro ⟨b, hb, rfl⟩
    exact ⟨b.1, rfl, mem_listing.mp hb⟩
  · rintro ⟨p, hp, hget⟩
    refine ⟨(p, e.2), mem_listing.mpr hget, ?_⟩
    rw [← hp]

lemma compatible_listingUnder (x : EntryName) (t : FileTree C) : Compatible (t.listingUnder x) := by
  intro a ha b hb hpre
  obtain ⟨p, hp, hget⟩ := mem_listingUnder.mp ha
  obtain ⟨q, hq, hget'⟩ := mem_listingUnder.mp hb
  rw [hp, hq] at hpre
  have hpq : p <+: q := (List.cons_prefix_cons.mp hpre).2
  by_cases heq : p = q
  · subst heq
    right
    rw [hget, Option.some.injEq] at hget'
    exact Prod.ext (hp.trans hq.symm) hget'
  · left
    rw [get_above hget' hpq heq, Option.some.injEq] at hget
    exact hget.symm

/-- **Putting the entries of a tree under a name, in the order of any listing, gives the tree.** -/
theorem putAll_listingUnder (x : EntryName) (t : FileTree C) :
    ∃ u v, empty.putAll (t.listingUnder x) = some u ∧ u.sub [x] = some v ∧
      ∀ p, v.get p = t.get p := by
  have hempty : ∀ p n, (empty : FileTree C).get p = some n → Needed (t.listingUnder x) p n := by
    intro p n hget
    rw [get_empty] at hget
    split_ifs at hget with hp
    exact .inl ⟨hp, (Option.some.inj hget).symm⟩
  obtain ⟨u, hu, hneeded, hput, -⟩ := putAll_spec (compatible_listingUnder x t)
    (fun b hb hnil => by
      obtain ⟨p, hp, -⟩ := mem_listingUnder.mp hb
      exact absurd (hp.symm.trans hnil) (List.cons_ne_nil x p))
    (t.listingUnder x) empty (fun _ he => he) hempty
  have hget : ∀ p, u.get (x :: p) = t.get p := by
    intro p
    cases htp : t.get p with
    | some n => exact hput (x :: p, n) (mem_listingUnder.mpr ⟨p, rfl, htp⟩)
    | none =>
      rw [Option.eq_none_iff_forall_ne_some]
      intro n hn
      rcases hneeded (x :: p) n hn with ⟨hnil, -⟩ | hmem | ⟨-, b, hb, hpre, hne⟩
      · exact absurd hnil (List.cons_ne_nil x p)
      · obtain ⟨q, hq, hgetq⟩ := mem_listingUnder.mp hmem
        rw [← (List.cons.inj hq).2, htp] at hgetq
        exact absurd hgetq (by simp)
      · obtain ⟨q, hq, hgetq⟩ := mem_listingUnder.mp hb
        rw [hq] at hpre hne
        have habove := get_above hgetq (List.cons_prefix_cons.mp hpre).2 fun heq => hne (heq ▸ rfl)
        rw [htp] at habove
        exact absurd habove (by simp)
  obtain ⟨v, hv⟩ := sub_eq_some ((hget []).trans t.get_root)
  exact ⟨u, v, hu, hv, fun p => (get_sub hv p).trans (hget p)⟩

end FileTree

end Habeny.Lib
