import Habeny.Lib.JsonRewrite

/-!
# What `json.loads` returns

However a text of code points is read, no object in the value has a key twice and all its strings
are code points (`regular_of_loads`), so the value can be written and read again.
-/

namespace Habeny.Lib

/-- Everything in a text is a code point. -/
def CodeText.IsValid (t : CodeText) : Prop := ∀ c ∈ t, c < 0x110000

namespace JsonScan

open CodeText JsonText

variable {F : FloatText} {L : Limits}

/-- No object in the value has a key twice, and all strings are code points. -/
inductive Regular : JsonValue → Prop
  | null : Regular .null
  | bool (b : Bool) : Regular (.bool b)
  | int (n : ℤ) : Regular (.int n)
  | float (x : JsonFloat) : Regular (.float x)
  | str {t : CodeText} (valid : t.IsValid) : Regular (.str t)
  | list {items : List JsonValue} (values : ∀ v ∈ items, Regular v) : Regular (.list items)
  | dict {es : JsonEntries} (nodup : (es.map Prod.fst).Nodup) (keys : ∀ e ∈ es, e.1.IsValid)
      (values : ∀ e ∈ es, Regular e.2) : Regular (.dict es)

lemma points_ofPoints {t : CodeText} (h : t.IsValid) : (PyStr.ofPoints t).points = t :=
  congrArg PyStr.points (ofPoints_points ⟨t, h⟩)

/-- A regular value is one whose keys are strings. -/
theorem stringKeyed_ofJson [DecidablePred F.isFloat] {v : JsonValue} (h : Regular v) :
    StringKeyed (PyRepr.ofJson F v) := by
  induction h with
  | null => exact .none
  | bool b => exact .bool b
  | int n => exact .int n
  | float x => exact .float _
  | str _ => exact .str _
  | list _ ih =>
    rw [PyRepr.ofJson, ofJsonItems_eq]
    exact .list (List.forall_mem_map.mpr ih)
  | @dict es nodup keys _ ih =>
    rw [PyRepr.ofJson, ofJsonEntries_eq]
    refine .dict (List.forall_mem_map.mpr fun e _ => rfl) ?_ (List.forall_mem_map.mpr ih)
    rw [List.map_map]
    have hkeys : es.map (fun e => (PyStr.ofPoints e.1).points) = es.map Prod.fst :=
      List.map_congr_left fun e he => points_ofPoints (keys e he)
    exact hkeys ▸ nodup

/-! ## Keys -/

lemma nodup_set {d : JsonEntries} (h : (d.map Prod.fst).Nodup) (k : CodeText) (v : JsonValue) :
    ((d.set k v).map Prod.fst).Nodup := by
  rw [JsonEntries.set]
  split_ifs with hlookup
  · rw [List.map_map]
    have hsame : ∀ e ∈ d, (Prod.fst ∘ fun e => if e.1 = k then (k, v) else e) e = e.1 := by
      intro e _
      simp only [Function.comp_apply]
      split_ifs with hk
      · exact hk.symm
      · rfl
    rw [List.map_congr_left hsame]
    exact h
  · rw [List.map_append, List.map_singleton, List.nodup_append]
    refine ⟨h, List.nodup_singleton k, fun a ha b hb => ?_⟩
    rw [List.mem_singleton.mp hb]
    rintro rfl
    obtain ⟨e, he, rfl⟩ := List.mem_map.mp ha
    rw [Bool.not_eq_true, Option.isSome_eq_false_iff, Option.isNone_iff_eq_none] at hlookup
    have hne := List.lookup_eq_none_iff.mp hlookup e he
    simp at hne

lemma nodup_ofEntries (es : JsonEntries) : ((ofEntries es).map Prod.fst).Nodup := by
  have hfold : ∀ d : JsonEntries, (d.map Prod.fst).Nodup →
      ((es.foldl (fun d e => d.set e.1 e.2) d).map Prod.fst).Nodup := by
    induction es with
    | nil => exact fun d hd => hd
    | cons e es ih => exact fun d hd => ih _ (nodup_set hd e.1 e.2)
  exact hfold [] List.nodup_nil

lemma regular_dict {es : JsonEntries} (h : ∀ e ∈ es, e.1.IsValid ∧ Regular e.2) :
    Regular (.dict (ofEntries es)) :=
  .dict (nodup_ofEntries es) (fun e he => (h e (mem_ofEntries he)).1)
    fun e he => (h e (mem_ofEntries he)).2

/-! ## Strings -/

/-- A part of a string that stands for a code point. -/
def Part.IsValid : Part → Prop
  | .plain c => c < 0x110000
  | .unicode n => n < 0x10000

lemma readHex4_lt {a b c d n : ℕ} (h : readHex4 a b c d = some n) : n < 0x10000 := by
  have hvalue : ∀ {c v : ℕ}, JsonText.hexValue c = some v → v < 16 := by
    intro c v hv
    rw [JsonText.hexValue] at hv
    split_ifs at hv with hdigit
    · rw [JsonText.isDigit, decide_eq_true_eq] at hdigit
      obtain rfl := Option.some.inj hv
      have hzero : code '0' = 48 := rfl
      have hnine : code '9' = 57 := rfl
      omega
    · obtain rfl := Option.some.inj hv
      have ha : code 'a' = 97 := rfl
      have hf : code 'f' = 102 := rfl
      omega
    · obtain rfl := Option.some.inj hv
      have ha : code 'A' = 65 := rfl
      have hf : code 'F' = 70 := rfl
      omega
  rw [readHex4] at h
  split at h
  · next ha hb hc hd =>
    obtain rfl := Option.some.inj h
    have hva := hvalue ha
    have hvb := hvalue hb
    have hvc := hvalue hc
    have hvd := hvalue hd
    omega
  · cases h

lemma readLetter_lt {e c : ℕ} (h : readLetter e = some c) : c < 0x110000 := by
  have hletters : ∀ l ∈ letters, l.1 < 0x110000 := by decide
  rw [readLetter] at h
  split_ifs at h with hslash
  · obtain rfl := Option.some.inj h
    rw [hslash]
    decide
  · obtain ⟨l, hfind, rfl⟩ := Option.map_eq_some_iff.mp h
    exact hletters l (List.mem_of_find?_eq_some hfind)

lemma valid_parts {s : CodeText} (hs : s.IsValid) {r : List Part × CodeText}
    (h : parts s = some r) : ∀ p ∈ r.1, Part.IsValid p := by
  fun_induction parts s generalizing r with
  | case2 s =>
    obtain rfl := Option.some.inj h
    exact fun p hp => absurd hp List.not_mem_nil
  | case4 h₃ h₂ h₁ h₀ s n hhex _ ih =>
    obtain ⟨r', hparts, rfl⟩ := Option.map_eq_some_iff.mp h
    have hrest : IsValid s := fun c hc => hs c (by simp [hc])
    exact List.forall_mem_cons.mpr ⟨readHex4_lt hhex, ih hrest hparts⟩
  | case7 e s _ c hletter _ ih =>
    obtain ⟨r', hparts, rfl⟩ := Option.map_eq_some_iff.mp h
    have hrest : IsValid s := fun c hc => hs c (by simp [hc])
    exact List.forall_mem_cons.mpr ⟨readLetter_lt hletter, ih hrest hparts⟩
  | case10 c s _ _ _ ih =>
    obtain ⟨r', hparts, rfl⟩ := Option.map_eq_some_iff.mp h
    obtain ⟨hc, hrest⟩ := List.forall_mem_cons.mp hs
    exact List.forall_mem_cons.mpr ⟨hc, ih hrest hparts⟩
  | _ => cases h

lemma valid_join {ps : List Part} (h : ∀ p ∈ ps, Part.IsValid p) : (join ps).IsValid := by
  have hunicode : ∀ {n : ℕ}, Part.IsValid (.unicode n) → n < 0x110000 := fun hn =>
    lt_trans (show _ < 0x10000 from hn) (by decide)
  fun_induction join ps with
  | case1 high low ps hboth ih =>
    obtain ⟨-, h⟩ := List.forall_mem_cons.mp h
    obtain ⟨-, h⟩ := List.forall_mem_cons.mp h
    rw [Bool.and_eq_true, isHigh, isLow, decide_eq_true_eq, decide_eq_true_eq] at hboth
    exact List.forall_mem_cons.mpr ⟨by omega, ih h⟩
  | case2 high low ps _ ih =>
    obtain ⟨hhigh, h⟩ := List.forall_mem_cons.mp h
    exact List.forall_mem_cons.mpr ⟨hunicode hhigh, ih h⟩
  | case3 n ps _ ih =>
    obtain ⟨hn, h⟩ := List.forall_mem_cons.mp h
    exact List.forall_mem_cons.mpr ⟨hunicode hn, ih h⟩
  | case4 c ps ih =>
    obtain ⟨hc, h⟩ := List.forall_mem_cons.mp h
    exact List.forall_mem_cons.mpr ⟨hc, ih h⟩
  | case5 => exact fun c hc => absurd hc List.not_mem_nil

lemma valid_readString {s : CodeText} (hs : s.IsValid) {r : CodeText × CodeText}
    (h : readString s = some r) : r.1.IsValid ∧ r.2 <:+ s := by
  obtain ⟨r', hparts, rfl⟩ := Option.map_eq_some_iff.mp h
  exact ⟨valid_join (valid_parts hs hparts), parts_suffix hparts⟩

/-! ## Values -/

lemma valid_of_suffix {s t : CodeText} (hs : s.IsValid) (h : t <:+ s) : t.IsValid :=
  fun c hc => hs c (h.subset hc)

lemma valid_skip {s : CodeText} (hs : s.IsValid) : (skip s).IsValid :=
  valid_of_suffix hs (skip_suffix s)

lemma regular_scalar {s : CodeText} {r : JsonValue × CodeText} (h : scalar F L s = .ok r) :
    Regular r.1 := by
  rw [scalar] at h
  cases hword : word s with
  | some w =>
    simp only [hword] at h
    obtain rfl := Except.ok.inj h
    obtain ⟨w', hw, hif⟩ := List.exists_of_findSome?_eq_some hword
    split_ifs at hif
    obtain rfl := Option.some.inj hif
    simp only [words, List.mem_cons, List.not_mem_nil, or_false] at hw
    rcases hw with rfl | rfl | rfl | rfl | rfl | rfl
    · exact .null
    · exact .bool true
    · exact .bool false
    · exact .float _
    · exact .float _
    · exact .float _
  | none =>
    simp only [hword] at h
    rw [number] at h
    cases hinteger : matchInteger s with
    | none => simp [hinteger] at h
    | some i =>
      simp only [hinteger] at h
      split_ifs at h
      · rw [← Except.ok.inj h]
        exact .int _
      · rw [← Except.ok.inj h]
        exact .float _

/-- In at most so many calls, what is read of a text of code points is regular. -/
structure Returns (F : FloatText) (L : Limits) (n : ℕ) : Prop where
  value : ∀ {depth : ℕ} {s : CodeText} {r : JsonValue × CodeText}, s.IsValid →
    value F L depth n s = .ok r → Regular r.1
  items : ∀ {depth : ℕ} {s : CodeText} {r : List JsonValue × CodeText}, s.IsValid →
    items F L depth n s = .ok r → ∀ v ∈ r.1, Regular v
  entries : ∀ {depth : ℕ} {s : CodeText} {r : JsonEntries × CodeText}, s.IsValid →
    entries F L depth n s = .ok r → ∀ e ∈ r.1, e.1.IsValid ∧ Regular e.2

section ReturnsStep

variable {n : ℕ} (ih : Returns F L n) {depth : ℕ}

include ih

lemma value_returns {s : CodeText} {r : JsonValue × CodeText} (hs : s.IsValid)
    (h : value F L depth (n + 1) s = .ok r) : Regular r.1 := by
  cases s with
  | nil => simp [value] at h
  | cons c s =>
    have htail := (List.forall_mem_cons.mp hs).2
    have hskip := valid_skip htail
    rw [value.eq_def] at h
    dsimp only at h
    split_ifs at h with hquote hlist hdict
    · obtain ⟨⟨t, rest⟩, hstring, rfl⟩ := map_eq_ok_iff.mp h
      cases hread : readString s with
      | none => simp [hread, orValueError] at hstring
      | some r' =>
        simp only [hread, orValueError, Except.ok.injEq] at hstring
        subst hstring
        exact .str (valid_readString htail hread).1
    · cases depth with
      | zero => simp at h
      | succ d =>
        cases hblank : skip s with
        | nil => simp [hblank] at h
        | cons e s' =>
          rw [hblank] at hskip
          simp only [hblank] at h
          split_ifs at h
          · obtain rfl := Except.ok.inj h
            exact .list fun v hv => absurd hv List.not_mem_nil
          · obtain ⟨r', hitems, rfl⟩ := map_eq_ok_iff.mp h
            exact .list (ih.items hskip hitems)
    · cases depth with
      | zero => simp at h
      | succ d =>
        cases hblank : skip s with
        | nil => simp [hblank] at h
        | cons e s' =>
          rw [hblank] at hskip
          simp only [hblank] at h
          split_ifs at h
          · obtain rfl := Except.ok.inj h
            exact .dict List.nodup_nil (fun e he => absurd he List.not_mem_nil)
              fun e he => absurd he List.not_mem_nil
          · obtain ⟨r', hentries, rfl⟩ := map_eq_ok_iff.mp h
            exact regular_dict (ih.entries hskip hentries)
    · exact regular_scalar h

lemma items_returns {s : CodeText} {r : List JsonValue × CodeText} (hs : s.IsValid)
    (h : items F L depth (n + 1) s = .ok r) : ∀ v ∈ r.1, Regular v := by
  rw [items] at h
  cases hvalue : value F L depth n s with
  | error e => simp [hvalue] at h
  | ok v =>
    have hfirst := ih.value hs hvalue
    have hrest := valid_skip (valid_of_suffix hs ((leaves n).value hvalue).1)
    simp only [hvalue] at h
    cases hskip : skip v.2 with
    | nil => simp [hskip] at h
    | cons c s' =>
      rw [hskip] at hrest
      simp only [hskip] at h
      split_ifs at h
      · obtain rfl := Except.ok.inj h
        exact List.forall_mem_singleton.mpr hfirst
      · obtain ⟨r', hitems, rfl⟩ := map_eq_ok_iff.mp h
        have hs' := valid_skip (List.forall_mem_cons.mp hrest).2
        exact List.forall_mem_cons.mpr ⟨hfirst, ih.items hs' hitems⟩

lemma entries_returns {s : CodeText} {r : JsonEntries × CodeText} (hs : s.IsValid)
    (h : entries F L depth (n + 1) s = .ok r) : ∀ e ∈ r.1, e.1.IsValid ∧ Regular e.2 := by
  cases s with
  | nil => simp [entries] at h
  | cons q s =>
    have htail := (List.forall_mem_cons.mp hs).2
    rw [entries] at h
    split_ifs at h
    cases hstring : readString s with
    | none => simp [hstring] at h
    | some k =>
      obtain ⟨hkey, hsuffix⟩ := valid_readString htail hstring
      have hcolon := valid_skip (valid_of_suffix htail hsuffix)
      simp only [hstring] at h
      cases hskip : skip k.2 with
      | nil => simp [hskip] at h
      | cons c s₁ =>
        rw [hskip] at hcolon
        have hs₁ := valid_skip (List.forall_mem_cons.mp hcolon).2
        simp only [hskip] at h
        split_ifs at h
        cases hvalue : value F L depth n (skip s₁) with
        | error e => simp [hvalue] at h
        | ok v =>
          have hfirst := ih.value hs₁ hvalue
          have hcomma := valid_skip (valid_of_suffix hs₁ ((leaves n).value hvalue).1)
          simp only [hvalue] at h
          cases hskip' : skip v.2 with
          | nil => simp [hskip'] at h
          | cons c' s₂ =>
            rw [hskip'] at hcomma
            simp only [hskip'] at h
            split_ifs at h
            · obtain rfl := Except.ok.inj h
              exact List.forall_mem_singleton.mpr ⟨hkey, hfirst⟩
            · obtain ⟨r', hentries, rfl⟩ := map_eq_ok_iff.mp h
              have hs₂ := valid_skip (List.forall_mem_cons.mp hcomma).2
              exact List.forall_mem_cons.mpr ⟨⟨hkey, hfirst⟩, ih.entries hs₂ hentries⟩

end ReturnsStep

lemma returns (n : ℕ) : Returns F L n := by
  induction n with
  | zero => exact ⟨fun _ h => by simp [value] at h, fun _ h => by simp [items] at h,
      fun _ h => by simp [entries] at h⟩
  | succ n ih => exact ⟨value_returns ih, items_returns ih, entries_returns ih⟩

/-- **What is read of a text of code points is regular.** -/
theorem regular_of_loads {s : CodeText} (hs : s.IsValid) {v : JsonValue}
    (h : loads F L s = .ok v) : Regular v := by
  rw [loads] at h
  cases hvalue : value F L L.depth (s.length + 1) (skip s) with
  | error e => simp [hvalue] at h
  | ok r =>
    simp only [hvalue] at h
    split_ifs at h
    obtain rfl := Except.ok.inj h
    exact (returns _).value (valid_skip hs) hvalue

end JsonScan

/-! ## Lines -/

namespace CodeText

lemma mem_collapse {t : CodeText} {c : ℕ} (h : c ∈ collapse t) : c ∈ t ∨ c = newline := by
  fun_induction collapse t with
  | case1 => exact .inl h
  | case2 d => exact .inl h
  | case3 c' d rest _ ih =>
    rcases List.mem_cons.mp h with rfl | h
    · exact .inr rfl
    · exact (ih h).imp_left fun h => List.mem_cons_of_mem _ (List.mem_cons_of_mem _ h)
  | case4 c' d rest _ ih =>
    rcases List.mem_cons.mp h with rfl | h
    · exact .inl List.mem_cons_self
    · exact (ih h).imp_left fun h => List.mem_cons_of_mem _ h

lemma mem_linesOf {t line : CodeText} (hline : line ∈ linesOf t) : ∀ c ∈ line, c ∈ t := by
  induction t generalizing line with
  | nil => exact absurd hline List.not_mem_nil
  | cons d t ih =>
    intro c hc
    rw [linesOf] at hline
    split_ifs at hline
    · rcases List.mem_cons.mp hline with rfl | hline
      · exact absurd hc List.not_mem_nil
      · exact List.mem_cons_of_mem d (ih hline c hc)
    · cases hlines : linesOf t with
      | nil =>
        rw [hlines, consHead, List.mem_singleton] at hline
        rw [hline, List.mem_singleton] at hc
        exact hc ▸ List.mem_cons_self
      | cons first rest =>
        rw [hlines, consHead] at hline
        rw [hlines] at ih
        rcases List.mem_cons.mp hline with rfl | hline
        · rcases List.mem_cons.mp hc with rfl | hc
          · exact List.mem_cons_self
          · exact List.mem_cons_of_mem d (ih List.mem_cons_self c hc)
        · exact List.mem_cons_of_mem d (ih (List.mem_cons_of_mem first hline) c hc)

lemma valid_collapse {t : CodeText} (ht : t.IsValid) : (collapse t).IsValid := by
  intro c hc
  rcases mem_collapse hc with hc | rfl
  · exact ht c hc
  · decide

lemma valid_splitlines {t line : CodeText} (ht : t.IsValid) (hline : line ∈ splitlines t) :
    line.IsValid := fun c hc => valid_collapse ht c (mem_linesOf hline c hc)

lemma valid_universalNewlines {t : CodeText} (ht : t.IsValid) : (universalNewlines t).IsValid := by
  intro c hc
  obtain ⟨d, hd, rfl⟩ := List.mem_map.mp hc
  split_ifs
  · decide
  · exact valid_collapse ht d hd

lemma valid_strip {t : CodeText} (ht : t.IsValid) : (strip t).IsValid := fun c hc =>
  ht c ((List.dropWhile_suffix _).subset ((List.rdropWhile_prefix _ _).subset hc))

end CodeText

end Habeny.Lib
