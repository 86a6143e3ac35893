import Habeny.Lib.JsonLimits
import Habeny.Lib.JsonOrder
import Habeny.Lib.PyRepr

/-!
# JSON that is read and written again

A value whose keys are strings is written with its keys in order.  What is read of the text is the
value in order, with the text of every value that JSON does not know in its place
(`unlimited_dumps`), and writing that gives the same text again (`dumps_again`).
-/

namespace Habeny.Lib

namespace JsonScan

open CodeText JsonText

variable {F : FloatText}

/-- All keys in the value are strings, and no dict in it has a key twice. -/
inductive StringKeyed : PyValue F → Prop
  | none : StringKeyed .none
  | bool (b : Bool) : StringKeyed (.bool b)
  | int (n : ℤ) : StringKeyed (.int n)
  | float (x : PyFloat F) : StringKeyed (.float x)
  | str (t : PyStr) : StringKeyed (.str t)
  | other (truthy : Bool) (str : PyStr) : StringKeyed (.other truthy str)
  | list {items : List (PyValue F)} (values : ∀ v ∈ items, StringKeyed v) :
      StringKeyed (.list items)
  | dict {es : List (PyKey F × PyValue F)} (keys : ∀ e ∈ es, (PyJson.str? e.1).isSome = true)
      (nodup : (es.map fun e => keyName e.1).Nodup) (values : ∀ e ∈ es, StringKeyed e.2) :
      StringKeyed (.dict es)

mutual

/-- A value with its keys in order, and with texts for what JSON does not know. -/
def again : PyValue F → PyValue F
  | .list items => .list (againItems items)
  | .dict es => .dict (PyJson.sorted (againEntries es))
  | .other _ str => .str str
  | v => v

def againItems : List (PyValue F) → List (PyValue F)
  | [] => []
  | v :: vs => again v :: againItems vs

def againEntries : List (PyKey F × PyValue F) → List (PyKey F × PyValue F)
  | [] => []
  | (k, v) :: es => (k, again v) :: againEntries es

end

lemma againItems_eq (vs : List (PyValue F)) : againItems vs = vs.map again := by
  induction vs with
  | nil => simp [againItems]
  | cons v vs ih => simp [againItems, ih]

lemma againEntries_eq (es : List (PyKey F × PyValue F)) :
    againEntries es = es.map fun e => (e.1, again e.2) := by
  induction es with
  | nil => simp [againEntries]
  | cons e es ih => simp [againEntries, ih]

/-! ## Keys in order -/

lemma sorted_map {β γ : Type*} (f : β → γ) (es : List (PyKey F × β)) :
    PyJson.sorted (es.map fun e => (e.1, f e.2)) =
      (PyJson.sorted es).map fun e => (e.1, f e.2) :=
  (List.map_insertionSort (fun e e' : PyKey F × β => !PyJson.keyLt e'.1 e.1)
    (fun e e' : PyKey F × γ => !PyJson.keyLt e'.1 e.1) (fun e => (e.1, f e.2)) es
    fun _ _ _ _ => Iff.rfl).symm

lemma again_dict (es : List (PyKey F × PyValue F)) :
    again (.dict es) = .dict ((PyJson.sorted es).map fun e => (e.1, again e.2)) := by
  rw [again, againEntries_eq, sorted_map]

/-- String keys that are in order stay as they are. -/
lemma sorted_sorted {β : Type*} {es : List (PyKey F × β)}
    (h : ∀ e ∈ es, (PyJson.str? e.1).isSome = true) :
    PyJson.sorted (PyJson.sorted es) = PyJson.sorted es := by
  let r : CodeText × β → CodeText × β → Prop := fun e e' => (!decide (e'.1 < e.1)) = true
  have htotal : Std.Total r := ⟨fun e e' => by
    simpa [r] using le_total e.1 e'.1⟩
  have htrans : IsTrans _ r := ⟨fun a b c hab hbc => by
    simp only [r, Bool.not_eq_true', decide_eq_false_iff_not, not_lt] at hab hbc ⊢
    exact hab.trans hbc⟩
  have hpairwise := List.pairwise_insertionSort r (es.map fun e => (keyName e.1, e.2))
  have hmap := map_sorted (fun b : β => b) h
  rw [← hmap, List.pairwise_map] at hpairwise
  refine List.Pairwise.insertionSort_eq (hpairwise.imp_of_mem fun {e e'} he he' hr => ?_)
  obtain ⟨t, hk, hname⟩ := keyName_of_isSome (h e (PyJson.mem_sorted.mp he))
  obtain ⟨t', hk', hname'⟩ := keyName_of_isSome (h e' (PyJson.mem_sorted.mp he'))
  simp only [r, hname, hname'] at hr
  rw [hk, hk', PyJson.keyLt]
  exact hr

/-- What holds of the entries holds of those that are written again. -/
lemma forall_mem_again {es : List (PyKey F × PyValue F)} {p : PyKey F × PyValue F → Prop}
    (h : ∀ e ∈ es, p (e.1, again e.2)) :
    ∀ e ∈ (PyJson.sorted es).map fun e => (e.1, again e.2), p e := by
  rw [List.forall_mem_map]
  exact fun e he => h e (PyJson.mem_sorted.mp he)

lemma nodup_sorted {es : List (PyKey F × PyValue F)} (h : (es.map fun e => keyName e.1).Nodup) :
    ((PyJson.sorted es).map fun e => keyName e.1).Nodup := by
  have hperm : (PyJson.sorted es).Perm es := List.perm_insertionSort _ _
  exact (hperm.map fun e => keyName e.1).nodup_iff.mpr h

lemma stringKeyed_again {v : PyValue F} (h : StringKeyed v) : StringKeyed (again v) := by
  induction h with
  | none => exact .none
  | bool b => exact .bool b
  | int n => exact .int n
  | float x => exact .float x
  | str t => exact .str t
  | other truthy str => exact .str str
  | list _ ih =>
    rw [again, againItems_eq]
    exact .list (List.forall_mem_map.mpr ih)
  | dict keys nodup _ ih =>
    rw [again_dict]
    refine .dict (forall_mem_again keys) ?_ (forall_mem_again ih)
    rw [List.map_map]
    exact nodup_sorted nodup

/-! ## What is read -/

lemma toJsonItems_eq (vs : List (PyValue F)) : toJsonItems vs = vs.map toJson := by
  induction vs with
  | nil => simp [toJsonItems]
  | cons v vs ih => simp [toJsonItems, ih]

lemma readsItems_eq_ok {o : DumpOptions} {depth : ℕ} {vs : List (PyValue F)}
    {f : PyValue F → JsonValue} (h : ∀ v ∈ vs, reads o depth v = .ok (f v)) :
    (readsItems o depth vs).mapM id = .ok (vs.map f) := by
  induction vs with
  | nil => rfl
  | cons v vs ih =>
    obtain ⟨hv, hvs⟩ := List.forall_mem_cons.mp h
    rw [readsItems, List.mapM_cons, ih hvs, hv]
    rfl

/-- A dict whose values are read is read in the order in which it is written. -/
lemma reads_dict_eq_ok {o : DumpOptions} (hraw : o.ensureAscii = false) {depth : ℕ}
    {es : List (PyKey F × PyValue F)} (hnodup : (es.map fun e => keyName e.1).Nodup)
    {f : PyValue F → JsonValue} (h : ∀ e ∈ es, reads o depth e.2 = .ok (f e.2)) :
    reads o (depth + 1) (.dict es) =
      .ok (.dict ((inOrder o es).map fun e => (keyName e.1, f e.2))) := by
  have hentries : (inOrder o (readsEntries o depth es)).mapM (entryResult o) =
      .ok ((inOrder o es).map fun e => (keyName e.1, f e.2)) := by
    rw [readsEntries_eq, map_inOrder o fun _ v => reads o depth v, PyJson.mapM_eq_ok_iff,
      List.forall₂_map_left_iff, List.forall₂_map_right_iff, List.forall₂_same]
    intro e he
    rw [entryResult, h e (mem_inOrder.mp he), readText, if_neg (by simp [hraw])]
    rfl
  have hnodup' : (((inOrder o es).map fun e => (keyName e.1, f e.2)).map Prod.fst).Nodup := by
    rw [List.map_map, inOrder]
    split_ifs
    · exact nodup_sorted hnodup
    · exact hnodup
  rw [reads, hentries]
  exact congrArg (fun es => Except.ok (JsonValue.dict es)) (ofEntries_of_nodup hnodup')

/-- What is read of a value that is written with its options. -/
def readBack (o : DumpOptions) (v : PyValue F) : PyValue F := if o.sortKeys then again v else v

/-- A value that is written is read back, where reading may go as deep as writing. -/
lemma reads_of_stringKeyed {o : DumpOptions} (hraw : o.ensureAscii = false) {v : PyValue F}
    (h : StringKeyed v) {depth : ℕ} (hfits : PyJson.fits o depth v = true) :
    reads o depth v = .ok (toJson (readBack o v)) := by
  have hstr : ∀ t : CodeText, readText o t = t := fun t => by rw [readText, if_neg (by simp [hraw])]
  induction h generalizing depth with
  | none => rw [reads, readBack]; split_ifs <;> rfl
  | bool b => rw [reads, readBack]; split_ifs <;> rfl
  | int n => rw [reads, readBack]; split_ifs <;> rfl
  | float x => rw [reads, readBack]; split_ifs <;> rfl
  | str t => rw [reads, hstr, readBack]; split_ifs <;> rfl
  | other truthy str => rw [reads, hstr, readBack]; split_ifs <;> rfl
  | @list items _ ih =>
    cases depth with
    | zero =>
      rw [PyJson.fits] at hfits
      cases hfits
    | succ depth =>
      rw [PyJson.fits, PyJson.itemsFit_iff] at hfits
      rw [reads, readsItems_eq_ok fun v hv => ih v hv (hfits v hv)]
      have hvalue : toJson (readBack o (.list items)) =
          .list (items.map fun v => toJson (readBack o v)) := by
        rw [readBack]
        split_ifs with hsort
        · simp [again, againItems_eq, toJson, toJsonItems_eq, readBack, hsort]
        · simp [toJson, toJsonItems_eq, readBack, hsort]
      rw [hvalue]
      rfl
  | @dict es _ nodup _ ih =>
    cases depth with
    | zero =>
      rw [PyJson.fits] at hfits
      cases hfits
    | succ depth =>
      rw [PyJson.fits, Bool.and_eq_true, PyJson.entriesFit_iff] at hfits
      have hall : ∀ e ∈ es, reads o depth e.2 = .ok (toJson (readBack o e.2)) := fun e he =>
        ih e he (hfits.2 e he).2
      rw [reads_dict_eq_ok hraw nodup (f := fun v => toJson (readBack o v)) hall]
      have hvalue : toJson (readBack o (.dict es)) =
          .dict ((inOrder o es).map fun e => (keyName e.1, toJson (readBack o e.2))) := by
        rw [readBack, inOrder]
        split_ifs with hsort
        · simp [again_dict, toJson, toJsonEntries_eq, readBack, hsort, Function.comp_def]
        · simp [toJson, toJsonEntries_eq, readBack, hsort]
      rw [hvalue]

/-- **A text has the value that was written**, with its keys in the order in which they stand. -/
theorem unlimited_dumps {o : DumpOptions} (ho : Separated o) (hraw : o.ensureAscii = false)
    {v : PyValue F} (hv : StringKeyed v) {d : ℕ} {t : CodeText} (h : PyJson.dumps o d v = .ok t) :
    unlimited F t = some (toJson (readBack o v)) := by
  have hloads := loads_dumps (L := ⟨d, fun _ => true⟩) ho (fun _ _ => rfl) h
  rw [reads_of_stringKeyed hraw hv ((PyJson.dumps_isOk d v).mp ⟨t, h⟩)] at hloads
  exact unlimited_of_loads hloads

/-! ## What is written again -/

lemma itemTexts_eq (o : DumpOptions) (depth : ℕ) (vs : List (PyValue F)) :
    PyJson.itemTexts o depth vs = vs.map (PyJson.dumps o depth) := by
  induction vs with
  | nil => simp [PyJson.itemTexts]
  | cons v vs ih => simp [PyJson.itemTexts, ih]

/-- String keys can be compared. -/
lemma ordered_of_str {β γ : Type*} {o : DumpOptions} (hsort : o.sortKeys = true) (f : β → γ)
    {es : List (PyKey F × β)} (h : ∀ e ∈ es, (PyJson.str? e.1).isSome = true) :
    PyJson.ordered o (es.map fun e => (e.1, f e.2)) =
      .ok ((PyJson.sorted es).map fun e => (e.1, f e.2)) := by
  have hall : (((es.map fun e => (e.1, f e.2)).map Prod.fst).all
      fun k => (PyJson.str? k).isSome) = true := by
    rw [List.all_eq_true, List.map_map, List.forall_mem_map]
    exact h
  rw [PyJson.ordered, if_pos hsort, if_pos, sorted_map]
  rw [PyJson.comparable, hall, Bool.or_true, Bool.true_or]

/-- **The text of a value is that of the value in order.** -/
theorem dumps_again {o : DumpOptions} (hsort : o.sortKeys = true) {v : PyValue F}
    (hv : StringKeyed v) {d : ℕ} {t : CodeText} (h : PyJson.dumps o d v = .ok t) :
    PyJson.dumps o d (again v) = .ok t := by
  induction hv generalizing d t with
  | none => exact h
  | bool b => exact h
  | int n => exact h
  | float x => exact h
  | str t => exact h
  | other truthy str =>
    cases d with
    | zero => cases h
    | succ d => exact h
  | @list items _ ih =>
    cases d with
    | zero => cases h
    | succ d =>
      obtain ⟨texts, htexts, rfl⟩ := PyJson.dumps_list.mp h
      have hsame : ∀ v ∈ items, PyJson.dumps o d (again v) = PyJson.dumps o d v := by
        intro v hmem
        rw [itemTexts_eq] at htexts
        obtain ⟨t, ht⟩ := PyJson.mapM_isOk_iff.mp ⟨texts, htexts⟩ _ (List.mem_map_of_mem hmem)
        rw [id_eq] at ht
        rw [ht, ih v hmem ht]
      rw [again, againItems_eq]
      refine PyJson.dumps_list.mpr ⟨texts, ?_, rfl⟩
      rw [itemTexts_eq, List.map_map]
      rw [itemTexts_eq, ← List.map_congr_left hsame] at htexts
      exact htexts
  | @dict es keys _ _ ih =>
    cases d with
    | zero => cases h
    | succ d =>
      obtain ⟨es', texts, hordered, htexts, rfl⟩ := PyJson.dumps_dict.mp h
      have hes' : es' = (PyJson.sorted es).map fun e => (e.1, PyJson.dumps o d e.2) := by
        rw [entryTexts_eq, ordered_of_str hsort _ keys] at hordered
        exact (Except.ok.inj hordered).symm
      subst hes'
      have hsame : ∀ e ∈ PyJson.sorted es,
          (e.1, PyJson.dumps o d (again e.2)) = (e.1, PyJson.dumps o d e.2) := by
        intro e hmem
        obtain ⟨t, ht⟩ := PyJson.mapM_isOk_iff.mp ⟨texts, htexts⟩ _ (List.mem_map_of_mem hmem)
        obtain ⟨key, text, -, hvalue, -⟩ := PyJson.entryText_eq_ok.mp ht
        rw [hvalue, ih e (PyJson.mem_sorted.mp hmem) hvalue]
      rw [again_dict]
      refine PyJson.dumps_dict.mpr ⟨_, texts, ?_, htexts, rfl⟩
      have hkeys : ∀ e ∈ PyJson.sorted es, (PyJson.str? e.1).isSome = true := fun e hmem =>
        keys e (PyJson.mem_sorted.mp hmem)
      rw [entryTexts_eq, List.map_map]
      change PyJson.ordered o ((PyJson.sorted es).map fun e =>
        (e.1, PyJson.dumps o d (again e.2))) = _
      rw [List.map_congr_left hsame, ordered_of_str hsort _ hkeys, sorted_sorted keys]

/-! ## The value of what is read -/

section OfJson

variable [DecidablePred F.isFloat]

lemma ofPoints_points (t : PyStr) : PyStr.ofPoints t.points = t := by
  have hpoints : (t.points.map fun c => if c < 0x110000 then c else 0xFFFD) = t.points :=
    calc (t.points.map fun c => if c < 0x110000 then c else 0xFFFD) = t.points.map id :=
        List.map_congr_left fun c hc => if_pos (t.valid c hc)
      _ = t.points := List.map_id _
  exact PyStr.ext hpoints

lemma ofJsonItems_eq (vs : List JsonValue) :
    PyRepr.ofJsonItems F vs = vs.map (PyRepr.ofJson F) := by
  induction vs with
  | nil => simp [PyRepr.ofJsonItems]
  | cons v vs ih => simp [PyRepr.ofJsonItems, ih]

lemma ofJsonEntries_eq (es : JsonEntries) : PyRepr.ofJsonEntries F es =
    es.map fun e => (PyKey.str (.ofPoints e.1), PyRepr.ofJson F e.2) := by
  induction es with
  | nil => simp [PyRepr.ofJsonEntries]
  | cons e es ih => simp [PyRepr.ofJsonEntries, ih]

/-- **The value in order is what `json.loads` returns of it.** -/
theorem ofJson_again {v : PyValue F} (h : StringKeyed v) :
    PyRepr.ofJson F (toJson (again v)) = again v := by
  induction h with
  | none => rfl
  | bool b => rfl
  | int n => rfl
  | float x =>
    rcases x with ⟨q, hq⟩ | negative | _
    · exact congrArg PyValue.float (dif_pos hq)
    · rfl
    · rfl
  | str t => exact congrArg PyValue.str (ofPoints_points t)
  | other truthy str => exact congrArg PyValue.str (ofPoints_points str)
  | @list items _ ih =>
    rw [again, againItems_eq, toJson, toJsonItems_eq, PyRepr.ofJson, ofJsonItems_eq, List.map_map,
      List.map_map]
    exact congrArg PyValue.list (List.map_congr_left ih)
  | @dict es keys _ _ ih =>
    rw [again_dict, toJson, toJsonEntries_eq, PyRepr.ofJson, ofJsonEntries_eq, List.map_map,
      List.map_map]
    refine congrArg PyValue.dict (List.map_congr_left fun e he => ?_)
    have hmem := PyJson.mem_sorted.mp he
    obtain ⟨t, hk, hname⟩ := keyName_of_isSome (keys e hmem)
    have hkey : PyKey.str (PyStr.ofPoints (keyName e.1)) = e.1 := by
      rw [hname, ofPoints_points, hk]
    have hvalue : PyRepr.ofJson F (toJson (again e.2)) = again e.2 := ih e hmem
    simp only [Function.comp_apply, hkey, hvalue]

end OfJson

end JsonScan

end Habeny.Lib
