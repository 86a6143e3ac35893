import Habeny.Lib.JsonScan

/-!
# JSON values up to the order of keys

A value all of whose keys are strings is written with its keys in order and read back as the same
value with its keys in order (`reads_eq_iff`), unless a string of it has a high surrogate just
before a low one, which are joined when they are read.
-/

namespace Habeny.Lib

namespace JsonScan

open CodeText JsonText

variable {F : FloatText}

/-! ## The value of a Python value -/

mutual

/-- A Python value as JSON has it. -/
def toJson : PyValue F → JsonValue
  | .none => .null
  | .bool b => .bool b
  | .int n => .int n
  | .float x => .float x.value
  | .str t => .str t.points
  | .list items => .list (toJsonItems items)
  | .dict es => .dict (toJsonEntries es)
  | .other _ str => .str str.points

def toJsonItems : List (PyValue F) → List JsonValue
  | [] => []
  | v :: vs => toJson v :: toJsonItems vs

def toJsonEntries : List (PyKey F × PyValue F) → List (CodeText × JsonValue)
  | [] => []
  | (k, v) :: es => (keyName k, toJson v) :: toJsonEntries es

end

mutual

/-- The value is one of JSON: its keys are strings, and no key occurs twice. -/
def IsJson : PyValue F → Prop
  | .list items => AreJson items
  | .dict es => (es.map fun e => keyName e.1).Nodup ∧ EntriesAreJson es
  | .other _ _ => False
  | _ => True

def AreJson : List (PyValue F) → Prop
  | [] => True
  | v :: vs => IsJson v ∧ AreJson vs

def EntriesAreJson : List (PyKey F × PyValue F) → Prop
  | [] => True
  | (k, v) :: es => (PyJson.str? k).isSome = true ∧ IsJson v ∧ EntriesAreJson es

end

/-- Entries by their keys. -/
def byKey (es : JsonEntries) : JsonEntries :=
  es.insertionSort fun e e' => !decide (e'.1 < e.1)

mutual

/-- A value with its keys in order.  Objects are the same if they are the same in order. -/
def sortKeys : JsonValue → JsonValue
  | .list items => .list (sortKeysItems items)
  | .dict es => .dict (byKey (sortKeysEntries es))
  | v => v

def sortKeysItems : List JsonValue → List JsonValue
  | [] => []
  | v :: vs => sortKeys v :: sortKeysItems vs

def sortKeysEntries : List (CodeText × JsonValue) → List (CodeText × JsonValue)
  | [] => []
  | (k, v) :: es => (k, sortKeys v) :: sortKeysEntries es

end

mutual

/-- In no string of the value a high surrogate is just before a low one. -/
def AllJoined : JsonValue → Prop
  | .str t => IsJoined t
  | .list items => ItemsJoined items
  | .dict es => EntriesJoined es
  | _ => True

def ItemsJoined : List JsonValue → Prop
  | [] => True
  | v :: vs => AllJoined v ∧ ItemsJoined vs

def EntriesJoined : List (CodeText × JsonValue) → Prop
  | [] => True
  | (k, v) :: es => IsJoined k ∧ AllJoined v ∧ EntriesJoined es

end

lemma entriesJoined_iff {es : List (CodeText × JsonValue)} :
    EntriesJoined es ↔ ∀ e ∈ es, IsJoined e.1 ∧ AllJoined e.2 := by
  induction es with
  | nil => exact iff_of_true trivial fun e he => absurd he List.not_mem_nil
  | cons e es ih => rw [EntriesJoined, List.forall_mem_cons, ih, and_assoc]

lemma sortKeysEntries_eq (es : List (CodeText × JsonValue)) :
    sortKeysEntries es = es.map fun e => (e.1, sortKeys e.2) := by
  induction es with
  | nil => simp [sortKeysEntries]
  | cons e es ih => simp [sortKeysEntries, ih]

lemma toJsonEntries_eq (es : List (PyKey F × PyValue F)) :
    toJsonEntries es = es.map fun e => (keyName e.1, toJson e.2) := by
  induction es with
  | nil => simp [toJsonEntries]
  | cons e es ih => simp [toJsonEntries, ih]

/-- Where no key occurs twice, the order of the entries does not matter. -/
lemma lookup_of_perm {es es' : JsonEntries} (h : es.Perm es') (hnodup : (es.map Prod.fst).Nodup)
    (k : CodeText) : es.lookup k = es'.lookup k := by
  induction h with
  | nil => rfl
  | cons e _ ih =>
    rw [List.lookup_cons, List.lookup_cons, ih (List.nodup_cons.mp hnodup).2]
  | swap e e' es =>
    obtain ⟨k₁, v₁⟩ := e
    obtain ⟨k₂, v₂⟩ := e'
    have hne : k₁ ≠ k₂ := by
      rintro rfl
      exact absurd hnodup (by simp)
    simp only [List.lookup_cons]
    by_cases hk : k = k₁
    · subst hk
      rw [beq_false_of_ne hne]
    · rw [beq_false_of_ne hk]
  | trans h₁ _ ih₁ ih₂ =>
    exact (ih₁ hnodup).trans (ih₂ ((h₁.map Prod.fst).nodup_iff.mp hnodup))

lemma lookup_sortKeysEntries (es : JsonEntries) (k : CodeText) :
    (sortKeysEntries es).lookup k = (es.lookup k).map sortKeys := by
  induction es with
  | nil => rfl
  | cons e es ih =>
    obtain ⟨k', v⟩ := e
    rw [sortKeysEntries, List.lookup_cons, List.lookup_cons, ih]
    cases k == k' <;> rfl

/-- A key has the same value, its own keys in order. -/
lemma lookup_byKey {es : JsonEntries} (hnodup : (es.map Prod.fst).Nodup) (k : CodeText) :
    (byKey (sortKeysEntries es)).lookup k = (es.lookup k).map sortKeys := by
  have hperm : (byKey (sortKeysEntries es)).Perm (sortKeysEntries es) :=
    List.perm_insertionSort _ _
  have hkeys : (sortKeysEntries es).map Prod.fst = es.map Prod.fst := by
    rw [sortKeysEntries_eq, List.map_map]
    rfl
  have hnodup' : ((byKey (sortKeysEntries es)).map Prod.fst).Nodup := by
    rw [(hperm.map Prod.fst).nodup_iff, hkeys]
    exact hnodup
  rw [lookup_of_perm hperm hnodup', lookup_sortKeysEntries]

lemma mem_byKey {es : JsonEntries} {e : CodeText × JsonValue} : e ∈ byKey es ↔ e ∈ es :=
  List.mem_insertionSort _

mutual

/-- The order of keys does not matter. -/
theorem allJoined_sortKeys : ∀ v : JsonValue, AllJoined (sortKeys v) ↔ AllJoined v
  | .null | .bool _ | .int _ | .float _ | .str _ => Iff.rfl
  | .list items => by
    rw [sortKeys, AllJoined, AllJoined, itemsJoined_sortKeys items]
  | .dict es => by
    rw [sortKeys, AllJoined, AllJoined, entriesJoined_iff, ← entriesJoined_sortKeys es,
      entriesJoined_iff]
    simp only [mem_byKey]

theorem itemsJoined_sortKeys : ∀ vs : List JsonValue,
    ItemsJoined (sortKeysItems vs) ↔ ItemsJoined vs
  | [] => Iff.rfl
  | v :: vs => by
    rw [sortKeysItems, ItemsJoined, ItemsJoined, allJoined_sortKeys v, itemsJoined_sortKeys vs]

theorem entriesJoined_sortKeys : ∀ es : List (CodeText × JsonValue),
    EntriesJoined (sortKeysEntries es) ↔ EntriesJoined es
  | [] => Iff.rfl
  | (k, v) :: es => by
    rw [sortKeysEntries, EntriesJoined, EntriesJoined, allJoined_sortKeys v,
      entriesJoined_sortKeys es]

end

/-! ## What is read is joined -/

/-- Surrogates are only among the parts that were escaped. -/
def SurrogatesEscaped : Part → Prop
  | .plain c => c < 0x110000 ∧ isHigh c = false ∧ isLow c = false
  | .unicode n => n < 0x10000

/-- The code point that joined parts begin with, if one that was escaped is the first. -/
lemma head_join_unicode {l : ℕ} {ps : List Part} {c : ℕ}
    (hc : c ∈ (join (.unicode l :: ps)).head?) : c = l ∨ 0x10000 ≤ c := by
  cases ps with
  | nil => exact .inl (by simpa [join] using hc.symm)
  | cons p ps =>
    cases p with
    | plain d => exact .inl (by simpa [join] using hc.symm)
    | unicode d =>
      rw [join] at hc
      split_ifs at hc
      · have hc : 0x10000 + (l - 0xD800) * 0x400 + (d - 0xDC00) = c := by simpa using hc
        exact .inr (by omega)
      · exact .inl (by simpa using hc.symm)

/-- Joined parts have no pair left. -/
lemma isJoined_join {ps : List Part} (h : ∀ p ∈ ps, SurrogatesEscaped p) : IsJoined (join ps) := by
  -- a code point in front of joined ones
  have hcons : ∀ {c : ℕ} {t : CodeText}, c < 0x110000 → IsJoined t →
      (∀ d ∈ t.head?, ¬(isHigh c = true ∧ isLow d = true)) → IsJoined (c :: t) := by
    intro c t hc ht hhead
    exact ⟨List.isChain_cons.mpr ⟨hhead, ht.1⟩, List.forall_mem_cons.mpr ⟨hc, ht.2⟩⟩
  induction ps using join.induct with
  | case1 a b ps hpair ih =>
    rw [join, if_pos hpair]
    rw [Bool.and_eq_true, isHigh, decide_eq_true_eq, isLow, decide_eq_true_eq] at hpair
    refine hcons (by omega) (ih fun p hp => h p (by simp [hp])) ?_
    rintro d - ⟨hhigh, -⟩
    rw [isHigh, decide_eq_true_eq] at hhigh
    omega
  | case2 a b ps hpair ih =>
    rw [join, if_neg hpair]
    have ha : a < 0x10000 := h (.unicode a) List.mem_cons_self
    refine hcons (by omega) (ih fun p hp => h p (List.mem_cons_of_mem _ hp)) ?_
    rintro d hd ⟨hhigh, hlow⟩
    rcases head_join_unicode hd with rfl | hlarge
    · exact hpair (by rw [hhigh, hlow]; rfl)
    · rw [isLow, decide_eq_true_eq] at hlow
      omega
  | case3 a ps hnot ih =>
    have ha : a < 0x10000 := h (.unicode a) List.mem_cons_self
    have hrest := ih fun p hp => h p (List.mem_cons_of_mem _ hp)
    cases ps with
    | nil => exact hcons (by omega) hrest fun d hd => by cases hd
    | cons p ps =>
      cases p with
      | unicode d => exact absurd rfl (hnot d ps)
      | plain d =>
        rw [join]
        · refine hcons (by omega) hrest ?_
          rintro e he ⟨-, hlow⟩
          obtain rfl : d = e := by simpa [join] using he
          have hd : SurrogatesEscaped (.plain d) := h _ (by simp)
          rw [hd.2.2] at hlow
          cases hlow
        · simp
  | case4 c ps ih =>
    have hc : SurrogatesEscaped (.plain c) := h _ List.mem_cons_self
    rw [join]
    refine hcons hc.1 (ih fun p hp => h p (List.mem_cons_of_mem _ hp)) ?_
    rintro d - ⟨hhigh, -⟩
    rw [hc.2.1] at hhigh
    cases hhigh
  | case5 => exact ⟨.nil, fun c hc => absurd hc List.not_mem_nil⟩

lemma letters_lookup_low : ∀ l ∈ letters, isHigh l.1 = false ∧ isLow l.1 = false := by decide

/-- What is escaped to ASCII is joined when it is read. -/
lemma isJoined_readText {o : DumpOptions} (ho : o.ensureAscii = true) {t : CodeText}
    (ht : ∀ c ∈ t, c < 0x110000) : IsJoined (readText o t) := by
  rw [readText, if_pos ho]
  refine isJoined_join fun p hp => ?_
  obtain ⟨c, hc, hp⟩ := List.mem_flatMap.mp hp
  have hlt := ht c hc
  rw [partsOf] at hp
  split_ifs at hp with hplain hshort
  · rw [List.mem_singleton.mp hp]
    refine ⟨hlt, ?_⟩
    rcases hplain with hletter | hprintable
    · obtain ⟨e, he⟩ := Option.isSome_iff_exists.mp hletter
      obtain ⟨before, after, hletters, -⟩ := List.lookup_eq_some_iff.mp he
      exact letters_lookup_low (c, e) (by simp [hletters])
    · rw [isPrintable, decide_eq_true_eq] at hprintable
      rw [isHigh, decide_eq_false_iff_not, isLow, decide_eq_false_iff_not]
      omega
  · rw [List.mem_singleton.mp hp]
    exact hshort
  · simp only [List.mem_cons, List.not_mem_nil, or_false] at hp
    rcases hp with rfl | rfl
    · change 0xD800 + (c - 0x10000) / 0x400 < 0x10000
      omega
    · change 0xDC00 + (c - 0x10000) % 0x400 < 0x10000
      omega

lemma keyName_lt (k : PyKey F) : ∀ c ∈ keyName k, c < 0x110000 := by
  cases h : PyJson.keyText k with
  | ok t =>
    obtain ⟨hname, hvalid⟩ := keyName_valid h
    rw [hname]
    exact hvalid
  | error e =>
    rw [keyName, h]
    exact fun c hc => absurd hc List.not_mem_nil

lemma mem_ofEntries {es : JsonEntries} {e : CodeText × JsonValue} (h : e ∈ ofEntries es) :
    e ∈ es := by
  have hset : ∀ {d : JsonEntries} {k : CodeText} {v : JsonValue}, e ∈ d.set k v →
      e = (k, v) ∨ e ∈ d := by
    intro d k v he
    rw [JsonEntries.set] at he
    split_ifs at he
    · obtain ⟨e', he', rfl⟩ := List.mem_map.mp he
      split_ifs
      · exact .inl rfl
      · exact .inr he'
    · rw [List.mem_append, List.mem_singleton] at he
      exact he.symm
  have hfold : ∀ {es d : JsonEntries}, e ∈ es.foldl (fun d e => d.set e.1 e.2) d → e ∈ es ∨ e ∈ d := by
    intro es
    induction es with
    | nil => exact fun he => .inr he
    | cons e' es ih =>
      intro d he
      rcases ih he with he | he
      · exact .inl (List.mem_cons_of_mem _ he)
      · rcases hset he with rfl | he
        · exact .inl List.mem_cons_self
        · exact .inr he
  rcases hfold h with h | h
  · exact h
  · exact absurd h List.not_mem_nil

mutual

theorem allJoined_reads {o : DumpOptions} (ho : o.ensureAscii = true) :
    ∀ (v : PyValue F) {depth : ℕ} {w : JsonValue}, reads o depth v = .ok w → AllJoined w
  | .none, _, _, h | .bool _, _, _, h | .int _, _, _, h | .float _, _, _, h => by
    rw [reads] at h
    cases h
    trivial
  | .str t, _, _, h => by
    rw [reads] at h
    cases h
    exact isJoined_readText ho t.valid
  | .other _ t, _, _, h => by
    rw [reads] at h
    cases h
    exact isJoined_readText ho t.valid
  | .list _, 0, _, h | .dict _, 0, _, h => by
    rw [reads] at h
    cases h
  | .list items, depth + 1, w, h => by
    rw [reads] at h
    obtain ⟨ws, hws, rfl⟩ := map_eq_ok_iff.mp h
    exact itemsJoined_reads ho items hws
  | .dict es, depth + 1, w, h => by
    rw [reads] at h
    obtain ⟨entries, hentries, rfl⟩ := map_eq_ok_iff.mp h
    rw [AllJoined, entriesJoined_iff]
    intro e he
    have hall := (PyJson.forall_mem_mapM hentries
      (p := fun e => IsJoined e.1 ∧ AllJoined e.2)).mpr
    refine hall (fun x hx y hy => ?_) e (mem_ofEntries he)
    obtain ⟨w, hw, rfl⟩ := map_eq_ok_iff.mp hy
    rw [mem_inOrder, readsEntries_eq] at hx
    obtain ⟨e', he', rfl⟩ := List.mem_map.mp hx
    exact ⟨isJoined_readText ho (keyName_lt _), entriesJoined_reads ho es e' he' hw⟩

theorem itemsJoined_reads {o : DumpOptions} (ho : o.ensureAscii = true) :
    ∀ (vs : List (PyValue F)) {depth : ℕ} {ws : List JsonValue},
      (readsItems o depth vs).mapM id = .ok ws → ItemsJoined ws
  | [], _, _, h => by
    rw [readsItems, PyJson.mapM_eq_ok_iff, List.forall₂_nil_left_iff] at h
    rw [h]
    trivial
  | v :: vs, _, _, h => by
    rw [readsItems, PyJson.mapM_eq_ok_iff] at h
    obtain ⟨w, ws, hw, hws, rfl⟩ := List.forall₂_cons_left_iff.mp h
    exact ⟨allJoined_reads ho v hw, itemsJoined_reads ho vs (PyJson.mapM_eq_ok_iff.mpr hws)⟩

theorem entriesJoined_reads {o : DumpOptions} (ho : o.ensureAscii = true) :
    ∀ (es : List (PyKey F × PyValue F)), ∀ e ∈ es, ∀ {depth : ℕ} {w : JsonValue},
      reads o depth e.2 = .ok w → AllJoined w
  | [] => fun _ he => absurd he List.not_mem_nil
  | (_, v) :: es => List.forall_mem_cons.mpr
      ⟨fun h => allJoined_reads ho v h, entriesJoined_reads ho es⟩

end

/-! ## The same value is read back -/

lemma keyName_of_isSome {k : PyKey F} (h : (PyJson.str? k).isSome = true) :
    ∃ t, k = .str t ∧ keyName k = t.points := by
  cases k with
  | str t => exact ⟨t, rfl, rfl⟩
  | none => cases h
  | bool b => cases h
  | int n => cases h
  | float x => cases h
  | other => cases h

lemma entriesAreJson_iff {es : List (PyKey F × PyValue F)} :
    EntriesAreJson es ↔ ∀ e ∈ es, (PyJson.str? e.1).isSome = true ∧ IsJson e.2 := by
  induction es with
  | nil => exact iff_of_true trivial fun e he => absurd he List.not_mem_nil
  | cons e es ih => rw [EntriesAreJson, List.forall_mem_cons, ih, and_assoc]

/-- String keys are sorted by their texts. -/
lemma map_sorted {β γ : Type*} (f : β → γ) {es : List (PyKey F × β)}
    (h : ∀ e ∈ es, (PyJson.str? e.1).isSome = true) :
    (PyJson.sorted es).map (fun e => (keyName e.1, f e.2)) =
      (es.map fun e => (keyName e.1, f e.2)).insertionSort fun e e' => !decide (e'.1 < e.1) := by
  refine List.map_insertionSort (fun e e' : PyKey F × β => !PyJson.keyLt e'.1 e.1)
    (fun e e' : CodeText × γ => !decide (e'.1 < e.1)) (fun e => (keyName e.1, f e.2)) es
    fun e he e' he' => ?_
  obtain ⟨t, hk, hname⟩ := keyName_of_isSome (h e he)
  obtain ⟨t', hk', hname'⟩ := keyName_of_isSome (h e' he')
  rw [hname, hname', hk, hk', PyJson.keyLt]
  rfl

/-- Entries are read one by one. -/
lemma mapM_entryResult {o : DumpOptions} {es : List (PyKey F × PyValue F)}
    {r : PyValue F → Except ScanError JsonValue} {f : PyValue F → JsonValue}
    (h : ∀ e ∈ es, r e.2 = .ok (f e.2) ∧ IsJoined (keyName e.1)) :
    (es.map fun e => (e.1, r e.2)).mapM (entryResult o) =
      .ok (es.map fun e => (keyName e.1, f e.2)) := by
  rw [PyJson.mapM_eq_ok_iff]
  induction es with
  | nil => exact .nil
  | cons e es ih =>
    obtain ⟨⟨hresult, hkey⟩, hes⟩ := List.forall_mem_cons.mp h
    refine .cons ?_ (ih hes)
    dsimp only
    rw [hresult, entryResult, readText_of_joined hkey]
    rfl

mutual

/-- A value whose strings are joined is read back with its keys in order. -/
theorem reads_of_joined {o : DumpOptions} (ho : o.sortKeys = true) :
    ∀ (v : PyValue F) {depth : ℕ}, IsJson v → AllJoined (toJson v) →
      PyJson.fits o depth v = true → reads o depth v = .ok (sortKeys (toJson v))
  | .none, _, _, _, _ | .bool _, _, _, _, _ | .int _, _, _, _, _ | .float _, _, _, _, _ => by
    rw [reads]
    rfl
  | .str t, _, _, hjoined, _ => by
    rw [reads, readText_of_joined hjoined]
    rfl
  | .other _ _, _, hjson, _, _ => hjson.elim
  | .list _, 0, _, _, hfits | .dict _, 0, _, _, hfits => by
    rw [PyJson.fits] at hfits
    cases hfits
  | .list items, depth + 1, hjson, hjoined, hfits => by
    rw [PyJson.fits] at hfits
    rw [reads, readsItems_of_joined ho items hjson hjoined hfits]
    rfl
  | .dict es, depth + 1, hjson, hjoined, hfits => by
    rw [PyJson.fits, Bool.and_eq_true] at hfits
    obtain ⟨hnodup, hentries⟩ := hjson
    have hall := readsEntries_of_joined ho es hentries hjoined hfits.2
    have hstr : ∀ e ∈ es, (PyJson.str? e.1).isSome = true := fun e he =>
      (entriesAreJson_iff.mp hentries e he).1
    have hkeys : ∀ e ∈ es, IsJoined (keyName e.1) := by
      intro e he
      rw [toJson, AllJoined, entriesJoined_iff, toJsonEntries_eq, List.forall_mem_map] at hjoined
      exact (hjoined e he).1
    -- the entries in order, each with its value
    have hsorted : (inOrder o (readsEntries o depth es)).mapM (entryResult o) =
        .ok (byKey (sortKeysEntries (toJsonEntries es))) := by
      have hmap := map_sorted (fun v => sortKeys (toJson v)) hstr
      rw [readsEntries_eq, map_inOrder o fun _ v => reads o depth v, inOrder, if_pos ho,
        mapM_entryResult (f := fun v => sortKeys (toJson v)), hmap, byKey, sortKeysEntries_eq,
        toJsonEntries_eq, List.map_map]
      · rfl
      · intro e he
        rw [PyJson.mem_sorted] at he
        exact ⟨hall e he, hkeys e he⟩
    have hkeysNodup : ((byKey (sortKeysEntries (toJsonEntries es))).map Prod.fst).Nodup := by
      have hperm : (byKey (sortKeysEntries (toJsonEntries es))).Perm
          (sortKeysEntries (toJsonEntries es)) := List.perm_insertionSort _ _
      rw [(hperm.map Prod.fst).nodup_iff, sortKeysEntries_eq, toJsonEntries_eq, List.map_map,
        List.map_map]
      exact hnodup
    rw [reads, hsorted, toJson, sortKeys]
    exact congrArg (fun es => Except.ok (JsonValue.dict es)) (ofEntries_of_nodup hkeysNodup)

theorem readsItems_of_joined {o : DumpOptions} (ho : o.sortKeys = true) :
    ∀ (vs : List (PyValue F)) {depth : ℕ}, AreJson vs → ItemsJoined (toJsonItems vs) →
      PyJson.itemsFit o depth vs = true →
        (readsItems o depth vs).mapM id = .ok (sortKeysItems (toJsonItems vs))
  | [], _, _, _, _ => rfl
  | v :: vs, depth, hjson, hjoined, hfits => by
    rw [PyJson.itemsFit, Bool.and_eq_true] at hfits
    have hv := reads_of_joined ho v hjson.1 hjoined.1 hfits.1
    have hvs := readsItems_of_joined ho vs hjson.2 hjoined.2 hfits.2
    rw [readsItems, List.mapM_cons, hvs, hv]
    rfl

theorem readsEntries_of_joined {o : DumpOptions} (ho : o.sortKeys = true) :
    ∀ (es : List (PyKey F × PyValue F)) {depth : ℕ}, EntriesAreJson es →
      EntriesJoined (toJsonEntries es) → PyJson.entriesFit o depth es = true →
        ∀ e ∈ es, reads o depth e.2 = .ok (sortKeys (toJson e.2))
  | [], _, _, _, _ => fun _ he => absurd he List.not_mem_nil
  | (_, v) :: es, depth, hjson, hjoined, hfits => by
    rw [PyJson.entriesFit, Bool.and_eq_true, Bool.and_eq_true] at hfits
    exact List.forall_mem_cons.mpr
      ⟨reads_of_joined ho v hjson.2.1 hjoined.2.1 hfits.1.2,
        readsEntries_of_joined ho es hjson.2.2 hjoined.2.2 hfits.2⟩

end

mutual

/-- What is read is not nested too deeply. -/
theorem fits_of_reads {o : DumpOptions} {d : ℕ} : ∀ (v : PyValue F) {depth : ℕ} {w : JsonValue},
    IsJson v → PyJson.fits o d v = true → reads o depth v = .ok w → PyJson.fits o depth v = true
  | .none, _, _, _, _, _ | .bool _, _, _, _, _, _ | .float _, _, _, _, _, _
  | .str _, _, _, _, _, _ => by simp [PyJson.fits]
  | .int _, _, _, _, hfits, _ => by
    rw [PyJson.fits] at hfits ⊢
    exact hfits
  | .other _ _, _, _, hjson, _, _ => hjson.elim
  | .list _, 0, _, _, _, h | .dict _, 0, _, _, _, h => by
    rw [reads] at h
    cases h
  | .list items, depth + 1, w, hjson, hfits, h => by
    cases d with
    | zero =>
      rw [PyJson.fits] at hfits
      cases hfits
    | succ d =>
      rw [PyJson.fits] at hfits ⊢
      rw [reads] at h
      obtain ⟨ws, hws, -⟩ := map_eq_ok_iff.mp h
      exact itemsFit_of_reads items hjson hfits hws
  | .dict es, depth + 1, w, hjson, hfits, h => by
    cases d with
    | zero =>
      rw [PyJson.fits] at hfits
      cases hfits
    | succ d =>
      rw [PyJson.fits, Bool.and_eq_true] at hfits ⊢
      rw [reads] at h
      obtain ⟨entries, hentries, -⟩ := map_eq_ok_iff.mp h
      refine ⟨hfits.1, entriesFit_of_reads es hjson.2 hfits.2 fun e he => ?_⟩
      obtain ⟨y, hy⟩ := PyJson.mapM_isOk_iff.mp ⟨entries, hentries⟩ (e.1, reads o depth e.2) (by
        rw [mem_inOrder, readsEntries_eq]
        exact List.mem_map_of_mem he)
      obtain ⟨w, hw, -⟩ := map_eq_ok_iff.mp hy
      exact ⟨w, hw⟩

theorem itemsFit_of_reads {o : DumpOptions} {d : ℕ} :
    ∀ (vs : List (PyValue F)) {depth : ℕ} {ws : List JsonValue}, AreJson vs →
      PyJson.itemsFit o d vs = true → (readsItems o depth vs).mapM id = .ok ws →
        PyJson.itemsFit o depth vs = true
  | [], _, _, _, _, _ => by simp [PyJson.itemsFit]
  | v :: vs, _, _, hjson, hfits, h => by
    rw [PyJson.itemsFit, Bool.and_eq_true] at hfits ⊢
    rw [readsItems, PyJson.mapM_eq_ok_iff] at h
    obtain ⟨w, ws, hw, hws, rfl⟩ := List.forall₂_cons_left_iff.mp h
    exact ⟨fits_of_reads v hjson.1 hfits.1 hw,
      itemsFit_of_reads vs hjson.2 hfits.2 (PyJson.mapM_eq_ok_iff.mpr hws)⟩

theorem entriesFit_of_reads {o : DumpOptions} {d : ℕ} :
    ∀ (es : List (PyKey F × PyValue F)) {depth : ℕ}, EntriesAreJson es →
      PyJson.entriesFit o d es = true → (∀ e ∈ es, ∃ w, reads o depth e.2 = .ok w) →
        PyJson.entriesFit o depth es = true
  | [], _, _, _, _ => by simp [PyJson.entriesFit]
  | (k, v) :: es, _, hjson, hfits, h => by
    rw [PyJson.entriesFit, Bool.and_eq_true, Bool.and_eq_true] at hfits ⊢
    obtain ⟨⟨w, hw⟩, hes⟩ := List.forall_mem_cons.mp h
    exact ⟨⟨hfits.1.1, fits_of_reads v hjson.2.1 hfits.1.2 hw⟩,
      entriesFit_of_reads es hjson.2.2 hfits.2 hes⟩

end

/-- **A value is read back as the same value exactly if its strings are joined** and reading may
go as deep as it is nested. -/
theorem reads_eq_iff {o : DumpOptions} (hsort : o.sortKeys = true) (hascii : o.ensureAscii = true)
    {d depth : ℕ} {v : PyValue F} (hjson : IsJson v) (hfits : PyJson.fits o d v = true) :
    reads o depth v = .ok (sortKeys (toJson v)) ↔
      AllJoined (toJson v) ∧ PyJson.fits o depth v = true := by
  constructor
  · intro h
    exact ⟨(allJoined_sortKeys _).mp (allJoined_reads hascii v h), fits_of_reads v hjson hfits h⟩
  · rintro ⟨hjoined, hdepth⟩
    exact reads_of_joined hsort v hjson hjoined hdepth

end JsonScan

end Habeny.Lib
