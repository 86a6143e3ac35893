import Habeny.Lib.FileTree
import Mathlib.Data.List.DropRight

/-!
# The last part of a path's text

What `basename` and `dirname` make of the text of a path.  A text whose last part is empty or a
single dot can only lead to a directory; of any other text the last part is the last name on the
way, and the rest leads to the directory above.
-/

namespace Habeny.Lib.Path

open CodeText

/-- The names that a text leads along. -/
def ofText (t : CodeText) : Option Path := ofParts (parts t)

lemma ofParts_eq_some_iff {ts : List CodeText} {p : Path} :
    ofParts ts = some p ↔ p.map Subtype.val = ts := by
  constructor
  · intro h
    induction ts generalizing p with
    | nil =>
      obtain rfl : [] = p := Option.some.inj h
      rfl
    | cons t ts ih =>
      obtain ⟨x, hx, h⟩ := Option.bind_eq_some_iff.mp h
      obtain ⟨q, hq, rfl⟩ := Option.map_eq_some_iff.mp h
      have hval : x.val = t := by
        unfold EntryName.ofText at hx
        split_ifs at hx
        exact congrArg Subtype.val (Option.some.inj hx).symm
      rw [List.map_cons, hval, ih hq]
  · rintro rfl
    exact ofParts_map_val p

/-! ## Parts -/

/-- What stands between separators has no separator, and only characters of the text. -/
lemma of_mem_splitOn {sep : ℕ} {t part : CodeText} (h : part ∈ t.splitOn sep) :
    sep ∉ part ∧ ∀ c ∈ part, c ∈ t := by
  induction t generalizing part with
  | nil =>
    obtain rfl : part = [] := by simpa using h
    simp
  | cons c t ih =>
    rw [List.splitOn_cons_eq_if_modifyHead] at h
    by_cases hc : c = sep
    · simp only [hc, beq_self_eq_true, if_true] at h
      rcases List.mem_cons.mp h with rfl | h
      · simp
      · exact ⟨(ih h).1, fun d hd => List.mem_cons_of_mem _ ((ih h).2 d hd)⟩
    · simp only [beq_eq_false_iff_ne.mpr hc, Bool.false_eq_true, if_false] at h
      cases hsplit : t.splitOn sep with
      | nil => exact absurd hsplit (List.splitOn_ne_nil sep t)
      | cons first others =>
        rw [hsplit] at h ih
        rcases List.mem_cons.mp h with rfl | h
        · have hfirst := ih List.mem_cons_self
          refine ⟨?_, fun d hd => ?_⟩
          · rintro hmem
            rcases List.mem_cons.mp hmem with heq | hmem
            · exact hc heq.symm
            · exact hfirst.1 hmem
          · rcases List.mem_cons.mp hd with rfl | hd
            · exact List.mem_cons_self
            · exact List.mem_cons_of_mem _ (hfirst.2 d hd)
        · have hother := ih (List.mem_cons_of_mem first h)
          exact ⟨hother.1, fun d hd => List.mem_cons_of_mem _ (hother.2 d hd)⟩

lemma parts_append (a b : CodeText) : parts (a ++ slash :: b) = parts a ++ parts b := by
  rw [parts, parts, parts, List.splitOn_append_cons_self, List.filter_append]

@[simp] lemma parts_nil : parts [] = [] := rfl

@[simp] lemma parts_slash : parts [slash] = [] := rfl

lemma parts_of_name {t : CodeText} (hslash : slash ∉ t) (hne : t ≠ []) (hdot : t ≠ lit ".") :
    parts t = [t] := by
  rw [parts, List.splitOn_eq_singleton hslash]
  exact List.filter_eq_self.mpr fun part hpart => by
    rw [List.mem_singleton.mp hpart]
    exact decide_eq_true ⟨hne, hdot⟩

/-- Slashes at the end lead nowhere else. -/
lemma parts_rdropWhile (t : CodeText) : parts (t.rdropWhile (· == slash)) = parts t := by
  induction t using List.reverseRecOn with
  | nil => rfl
  | append_singleton t c ih =>
    by_cases hc : c = slash
    · rw [List.rdropWhile_concat_pos _ _ _ (by simp [hc]), ih, hc, parts_append, parts_nil,
        List.append_nil]
    · rw [List.rdropWhile_concat_neg _ _ _ (by simp [hc])]

/-! ## The last part -/

/-- What stands behind the last slash. -/
def lastPart (t : CodeText) : CodeText := t.rtakeWhile (· != slash)

/-- `dirname` -/
def dirname (t : CodeText) : CodeText :=
  let trimmed := t.rdropWhile (· == slash)
  if trimmed = [] then if t = [] then lit "." else [slash]
  else
    let front := trimmed.rdropWhile (· != slash)
    if front = [] then lit "."
    else
      let above := front.rdropWhile (· == slash)
      if above = [] then [slash] else above

/-- The characters of a directory's text. -/
lemma mem_dirname {c : ℕ} {t : CodeText} (h : c ∈ dirname t) : c ∈ t ∨ c ∈ lit "./" := by
  unfold dirname at h
  dsimp only at h
  split_ifs at h
  · exact .inr (by simp_all [lit])
  · exact .inr (by simp_all [lit, slash])
  · exact .inr (by simp_all [lit])
  · exact .inr (by simp_all [lit, slash])
  · exact .inl ((List.rdropWhile_prefix _ _).mem ((List.rdropWhile_prefix _ _).mem
      ((List.rdropWhile_prefix _ _).mem h)))

/-- Whether a text can only lead to a directory. -/
def namesDirectory (t : CodeText) : Bool := decide (lastPart t = [] ∨ lastPart t = lit ".")

lemma slash_notMem_lastPart (t : CodeText) : slash ∉ lastPart t := fun h => by
  simpa using List.mem_rtakeWhile_imp h

/-- A text that has a slash is a text that ends in one, and the last part. -/
lemma exists_front {t : CodeText} (hslash : slash ∈ t) :
    ∃ front, t.rdropWhile (· != slash) = front ++ [slash] := by
  have hne : t.rdropWhile (· != slash) ≠ [] := by
    intro hnil
    have hsplit := List.rdropWhile_append_rtakeWhile (p := (· != slash)) (l := t)
    rw [hnil, List.nil_append] at hsplit
    exact slash_notMem_lastPart t (by rw [lastPart, hsplit]; exact hslash)
  have hlast := List.rdropWhile_last_not (· != slash) t hne
  have hslash' : (t.rdropWhile (· != slash)).getLast hne = slash := by simpa using hlast
  exact ⟨_, (hslash' ▸ List.dropLast_append_getLast hne).symm⟩

/-- **The parts of a text are those of its directory's text, and the last part.** -/
theorem parts_dirname {t : CodeText} (hslash : slash ∈ t) (hname : namesDirectory t = false) :
    parts t = parts (dirname t) ++ [lastPart t] := by
  rw [namesDirectory, decide_eq_false_iff_not, not_or] at hname
  obtain ⟨front, hfront⟩ := exists_front hslash
  have hsplit : front ++ slash :: lastPart t = t := by
    have h := List.rdropWhile_append_rtakeWhile (p := (· != slash)) (l := t)
    rw [hfront] at h
    simpa [lastPart] using h
  -- the last part is not empty, so no slash is at the end
  have htrim : t.rdropWhile (· == slash) = t := by
    obtain hnil | ⟨name, c, hc⟩ := (lastPart t).eq_nil_or_concat
    · exact absurd hnil hname.1
    have hne : c ≠ slash := by
      rintro rfl
      exact slash_notMem_lastPart t (by simp [hc])
    have ht : t = (front ++ slash :: name) ++ [c] := by
      rw [← hsplit, hc]
      simp
    rw [ht, List.rdropWhile_concat_neg _ _ _ (by simpa using hne)]
  have habove : parts (dirname t) = parts front := by
    have hparts : parts ((front ++ [slash]).rdropWhile (· == slash)) = parts front := by
      rw [parts_rdropWhile, parts_append, parts_nil, List.append_nil]
    rw [dirname]
    simp only [htrim, hfront]
    rw [if_neg (List.ne_nil_of_mem hslash), if_neg (by simp)]
    split_ifs with hnil
    · rw [← hparts, hnil]
      rfl
    · exact hparts
  calc parts t = parts (front ++ slash :: lastPart t) := by rw [hsplit]
    _ = parts front ++ [lastPart t] := by
        rw [parts_append, parts_of_name (slash_notMem_lastPart t) hname.1 hname.2]
    _ = parts (dirname t) ++ [lastPart t] := by rw [habove]

/-- The directory of a text leads to what is above what the text leads to. -/
lemma ofText_dirname {t : CodeText} {p : Path} (hslash : slash ∈ t)
    (hname : namesDirectory t = false) (hp : ofText t = some p) :
    ofText (dirname t) = some p.dropLast ∧ p ≠ [] := by
  have hparts : p.map Subtype.val = parts (dirname t) ++ [lastPart t] := by
    rw [ofParts_eq_some_iff.mp hp, parts_dirname hslash hname]
  constructor
  · refine ofParts_eq_some_iff.mpr ?_
    rw [List.map_dropLast, hparts, List.dropLast_concat]
  · rintro rfl
    simp at hparts

end Habeny.Lib.Path

/-! ## Making the directory of a file -/

namespace Habeny.Lib.FileTree

variable {C : Type} {t u : FileTree C} {p q : Path} {n : Node C}

lemma prefix_dropLast (hq : q <+: p) (hne : q ≠ p) : q <+: p.dropLast := by
  induction p using List.reverseRecOn with
  | nil => exact absurd (List.prefix_nil.mp hq) hne
  | append_singleton p x _ =>
    rw [List.dropLast_concat]
    exact (List.prefix_concat_iff.mp hq).resolve_left hne

lemma not_prefix_dropLast (hne : p ≠ []) : ¬ p <+: p.dropLast := by
  intro h
  have hle := h.length_le
  have hpos := List.length_pos_iff.mpr hne
  rw [List.length_dropLast] at hle
  omega

lemma fits_of_put (h : t.put p n = some u) : t.Fits p n := by
  rw [put] at h
  split_ifs at h
  assumption

/-- What fits for one content fits for every other. -/
lemma Fits.file {c : C} (h : t.Fits p (.file c)) (c' : C) : t.Fits p (.file c') := by
  refine ⟨h.1, ?_⟩
  have hnode := h.2
  cases hget : t.get p with
  | none => rfl
  | some n =>
    rw [hget] at hnode
    cases n with
    | directory => cases hnode
    | file => rfl

/-- A file that is there can be put again. -/
lemma fits_of_file {c : C} (h : t.file p = some c) (c' : C) : t.Fits p (.file c') := by
  have hget := file_eq_some_iff.mp h
  refine ⟨fun q hq => ?_, ?_⟩
  · obtain ⟨hleads, hne⟩ := Path.mem_above.mp hq
    rw [get_above hget hleads hne]
    rfl
  · rw [hget]
    rfl

/-- Where a node fits its directory does. -/
lemma fits_dropLast (h : t.Fits p n) (hne : p ≠ []) : t.Fits p.dropLast .directory := by
  have hdirectory : p.dropLast ≠ p := fun heq =>
    not_prefix_dropLast hne ⟨[], (List.append_nil p).trans heq.symm⟩
  refine ⟨fun q hq => ?_, ?_⟩
  · obtain ⟨hleads, hq'⟩ := Path.mem_above.mp hq
    refine h.1 q (Path.mem_above.mpr ⟨hleads.trans (List.dropLast_prefix p), ?_⟩)
    rintro rfl
    exact not_prefix_dropLast hne hleads
  · exact h.1 _ (Path.mem_above.mpr ⟨List.dropLast_prefix p, hdirectory⟩)

/-- The directory does not change what is at the path. -/
lemma get_of_put_dropLast (h : t.put p.dropLast .directory = some u) (hne : p ≠ []) :
    u.get p = t.get p := by
  rw [get_put h, if_neg, if_neg (not_prefix_dropLast hne)]
  intro heq
  exact not_prefix_dropLast hne ⟨[], (List.append_nil p).trans heq⟩

/-- What is above a path once its directory is made. -/
lemma get_above_of_put_dropLast (h : t.put p.dropLast .directory = some u) (hq : q <+: p)
    (hne : q ≠ p) : u.get q = some .directory := by
  rw [get_put h]
  split_ifs with heq hleads
  · rfl
  · rfl
  · exact absurd (prefix_dropLast hq hne) hleads

/-- With the directory made as much fits as before. -/
lemma fits_iff_of_put_dropLast (h : t.put p.dropLast .directory = some u) (hne : p ≠ []) :
    u.Fits p n ↔ t.Fits p n := by
  have hfits := fits_of_put h
  constructor
  · intro hu
    refine ⟨fun q hq => ?_, get_of_put_dropLast h hne ▸ hu.2⟩
    obtain ⟨hleads, hq'⟩ := Path.mem_above.mp hq
    by_cases heq : q = p.dropLast
    · rw [heq]
      exact hfits.2
    · exact hfits.1 q (Path.mem_above.mpr ⟨prefix_dropLast hleads hq', heq⟩)
  · intro ht
    refine ⟨fun q hq => ?_, (get_of_put_dropLast h hne).symm ▸ ht.2⟩
    obtain ⟨hleads, hq'⟩ := Path.mem_above.mp hq
    rw [get_above_of_put_dropLast h hleads hq']
    rfl

end Habeny.Lib.FileTree
