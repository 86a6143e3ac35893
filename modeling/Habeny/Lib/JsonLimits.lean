import Habeny.Lib.JsonScan

/-!
# What a text is without limits

A text that is read within some limits is read as the same value within wider ones.  So a text has
one value, whatever the limits are, and `unlimited` is it: no text is nested deeper than it is
long.

What is left of a text after a value is its end, and the text of an object stands between braces
(`braces_of_loads`).
-/

namespace Habeny.Lib

namespace JsonScan

open CodeText JsonText

variable {F : FloatText} {L L' : Limits}

/-! ## Wider limits -/

/-- In at most so many calls, what is read with `L` is read with `L'` as well, in a text that may
be nested as deep or as deep as there are calls. -/
structure Widens (F : FloatText) (L L' : Limits) (n : ℕ) : Prop where
  value : ∀ {depth depth' : ℕ} {s : CodeText} {r : JsonValue × CodeText},
    depth ≤ depth' ∨ n ≤ depth' → value F L depth n s = .ok r → value F L' depth' n s = .ok r
  items : ∀ {depth depth' : ℕ} {s : CodeText} {r : List JsonValue × CodeText},
    depth ≤ depth' ∨ n ≤ depth' → items F L depth n s = .ok r → items F L' depth' n s = .ok r
  entries : ∀ {depth depth' : ℕ} {s : CodeText} {r : JsonEntries × CodeText},
    depth ≤ depth' ∨ n ≤ depth' → entries F L depth n s = .ok r →
      entries F L' depth' n s = .ok r

lemma number_wider (hL : ∀ k, L.digits k = true → L'.digits k = true) {s : CodeText}
    {r : JsonValue × CodeText} (h : number F L s = .ok r) : number F L' s = .ok r := by
  rw [number] at h ⊢
  cases hinteger : matchInteger s with
  | none => simp [hinteger] at h
  | some i =>
    obtain ⟨integer, s⟩ := i
    simp only [hinteger] at h ⊢
    split_ifs at h with hkind hdigits
    · rw [if_pos hkind, if_pos (hL _ hdigits)]
      exact h
    · rw [if_neg hkind]
      exact h

lemma scalar_wider (hL : ∀ k, L.digits k = true → L'.digits k = true) {s : CodeText}
    {r : JsonValue × CodeText} (h : scalar F L s = .ok r) : scalar F L' s = .ok r := by
  rw [scalar] at h ⊢
  cases hword : word s with
  | some w => simpa [hword] using h
  | none =>
    simp only [hword] at h ⊢
    exact number_wider hL h

section Step

variable {n : ℕ} (ih : Widens F L L' n) {depth depth' : ℕ}

include ih

lemma value_wider (hL : ∀ k, L.digits k = true → L'.digits k = true) {s : CodeText}
    {r : JsonValue × CodeText} (hdepth : depth ≤ depth' ∨ n + 1 ≤ depth')
    (h : value F L depth (n + 1) s = .ok r) : value F L' depth' (n + 1) s = .ok r := by
  cases s with
  | nil => simp [value] at h
  | cons c s =>
    rw [value.eq_def] at h ⊢
    dsimp only at h ⊢
    split_ifs at h ⊢
    · exact h
    · cases depth with
      | zero => simp at h
      | succ d =>
        obtain ⟨d', rfl⟩ : ∃ d', depth' = d' + 1 := ⟨depth' - 1, by omega⟩
        cases hskip : skip s with
        | nil => simp [hskip] at h
        | cons e s' =>
          simp only [hskip] at h ⊢
          split_ifs at h ⊢
          · exact h
          · obtain ⟨r', hitems, hr⟩ := map_eq_ok_iff.mp h
            exact map_eq_ok_iff.mpr ⟨r', ih.items (by omega) hitems, hr⟩
    · cases depth with
      | zero => simp at h
      | succ d =>
        obtain ⟨d', rfl⟩ : ∃ d', depth' = d' + 1 := ⟨depth' - 1, by omega⟩
        cases hskip : skip s with
        | nil => simp [hskip] at h
        | cons e s' =>
          simp only [hskip] at h ⊢
          split_ifs at h ⊢
          · exact h
          · obtain ⟨r', hentries, hr⟩ := map_eq_ok_iff.mp h
            exact map_eq_ok_iff.mpr ⟨r', ih.entries (by omega) hentries, hr⟩
    · exact scalar_wider hL h

lemma items_wider {s : CodeText} {r : List JsonValue × CodeText}
    (hdepth : depth ≤ depth' ∨ n + 1 ≤ depth') (h : items F L depth (n + 1) s = .ok r) :
    items F L' depth' (n + 1) s = .ok r := by
  rw [items] at h ⊢
  cases hvalue : value F L depth n s with
  | error e => simp [hvalue] at h
  | ok v =>
    obtain ⟨v, s⟩ := v
    rw [ih.value (by omega) hvalue]
    simp only [hvalue] at h ⊢
    cases hskip : skip s with
    | nil => simp [hskip] at h
    | cons c s =>
      simp only [hskip] at h ⊢
      split_ifs at h ⊢
      · exact h
      · obtain ⟨r', hitems, hr⟩ := map_eq_ok_iff.mp h
        exact map_eq_ok_iff.mpr ⟨r', ih.items (by omega) hitems, hr⟩

lemma entries_wider {s : CodeText} {r : JsonEntries × CodeText}
    (hdepth : depth ≤ depth' ∨ n + 1 ≤ depth') (h : entries F L depth (n + 1) s = .ok r) :
    entries F L' depth' (n + 1) s = .ok r := by
  cases s with
  | nil => simp [entries] at h
  | cons q s =>
    rw [entries] at h ⊢
    split_ifs at h ⊢
    cases hstring : readString s with
    | none => simp [hstring] at h
    | some k =>
      obtain ⟨k, s⟩ := k
      simp only [hstring] at h ⊢
      cases hskip : skip s with
      | nil => simp [hskip] at h
      | cons c s =>
        simp only [hskip] at h ⊢
        split_ifs at h ⊢
        cases hvalue : value F L depth n (skip s) with
        | error e => simp [hvalue] at h
        | ok v =>
          obtain ⟨v, s⟩ := v
          rw [ih.value (by omega) hvalue]
          simp only [hvalue] at h ⊢
          cases hskip' : skip s with
          | nil => simp [hskip'] at h
          | cons c s =>
            simp only [hskip'] at h ⊢
            split_ifs at h ⊢
            · exact h
            · obtain ⟨r', hentries, hr⟩ := map_eq_ok_iff.mp h
              exact map_eq_ok_iff.mpr ⟨r', ih.entries (by omega) hentries, hr⟩

end Step

lemma widens (hL : ∀ k, L.digits k = true → L'.digits k = true) (n : ℕ) : Widens F L L' n := by
  induction n with
  | zero => exact ⟨fun _ h => by simp [value] at h, fun _ h => by simp [items] at h,
      fun _ h => by simp [entries] at h⟩
  | succ n ih => exact ⟨value_wider ih hL, items_wider ih, entries_wider ih⟩

/-- `json.loads` of a text without limits of any kind. -/
def unlimited (F : FloatText) (s : CodeText) : Option JsonValue :=
  (loads F ⟨s.length + 1, fun _ => true⟩ s).toOption

/-- **A text has the value that is read within any limits.** -/
theorem unlimited_of_loads {s : CodeText} {v : JsonValue} (h : loads F L s = .ok v) :
    unlimited F s = some v := by
  rw [loads] at h
  rw [unlimited, loads]
  cases hvalue : value F L L.depth (s.length + 1) (skip s) with
  | error e => simp [hvalue] at h
  | ok r =>
    have hwide : value F ⟨s.length + 1, fun _ => true⟩ (s.length + 1) (s.length + 1) (skip s) =
        .ok r := (widens (fun _ _ => rfl) (s.length + 1)).value (.inr le_rfl) hvalue
    rw [hwide]
    simp only [hvalue] at h ⊢
    rw [h]
    rfl

/-! ## What is left of a text -/

lemma skip_suffix (s : CodeText) : skip s <:+ s := List.dropWhile_suffix _

lemma parts_suffix {s : CodeText} {r : List Part × CodeText} (h : parts s = some r) :
    r.2 <:+ s := by
  fun_induction parts s generalizing r with
  | case2 s =>
    obtain rfl := Option.some.inj h
    exact ⟨[_], rfl⟩
  | case4 h₃ h₂ h₁ h₀ s e _ _ ih =>
    obtain ⟨r', hparts, rfl⟩ := Option.map_eq_some_iff.mp h
    exact (ih hparts).trans ⟨[_, _, h₃, h₂, h₁, h₀], rfl⟩
  | case7 e s _ _ _ _ ih =>
    obtain ⟨r', hparts, rfl⟩ := Option.map_eq_some_iff.mp h
    exact (ih hparts).trans ⟨[_, e], rfl⟩
  | case10 c s _ _ _ ih =>
    obtain ⟨r', hparts, rfl⟩ := Option.map_eq_some_iff.mp h
    exact (ih hparts).trans ⟨[c], rfl⟩
  | _ => cases h

lemma matchDigits_suffix {s : CodeText} {r : CodeText × CodeText} (h : matchDigits s = some r) :
    r.2 <:+ s := by
  cases s with
  | nil => simp [matchDigits] at h
  | cons d rest =>
    rw [matchDigits] at h
    split_ifs at h
    · obtain rfl := Option.some.inj h
      exact List.suffix_cons d rest
    · obtain rfl := Option.some.inj h
      exact List.dropWhile_suffix _

lemma matchInteger_suffix {s : CodeText} {r : CodeText × CodeText} (h : matchInteger s = some r) :
    r.2 <:+ s := by
  cases s with
  | nil => simp [matchInteger] at h
  | cons c rest =>
    rw [matchInteger] at h
    split_ifs at h
    · obtain ⟨r', hdigits, rfl⟩ := Option.map_eq_some_iff.mp h
      exact (matchDigits_suffix hdigits).trans (List.suffix_cons c rest)
    · exact matchDigits_suffix h

lemma matchFraction_suffix (s : CodeText) : (matchFraction s).2 <:+ s := by
  cases s with
  | nil => exact List.suffix_refl _
  | cons c rest =>
    rw [matchFraction]
    split_ifs
    · exact (List.dropWhile_suffix _).trans (List.suffix_cons c rest)
    · exact List.suffix_refl _

lemma matchExponent_suffix (s : CodeText) : (matchExponent s).2 <:+ s := by
  cases s with
  | nil => exact List.suffix_refl _
  | cons c rest =>
    rw [matchExponent]
    split_ifs
    · exact ((List.dropWhile_suffix _).trans (List.drop_suffix _ _)).trans (List.suffix_cons c rest)
    · exact List.suffix_refl _

lemma number_suffix {s : CodeText} {r : JsonValue × CodeText} (h : number F L s = .ok r) :
    r.2 <:+ s := by
  rw [number] at h
  cases hinteger : matchInteger s with
  | none => simp [hinteger] at h
  | some i =>
    obtain ⟨integer, s'⟩ := i
    have hs' : s' <:+ s := matchInteger_suffix hinteger
    have hrest : (matchExponent (matchFraction s').2).2 <:+ s :=
      ((matchExponent_suffix _).trans (matchFraction_suffix s')).trans hs'
    simp only [hinteger] at h
    split_ifs at h
    · obtain rfl := Except.ok.inj h
      exact hrest
    · obtain rfl := Except.ok.inj h
      exact hrest

lemma word_suffix {s : CodeText} {r : JsonValue × CodeText} (h : word s = some r) :
    r.2 <:+ s ∧ ∀ es, r.1 ≠ .dict es := by
  obtain ⟨w, hw, hif⟩ := List.exists_of_findSome?_eq_some h
  split_ifs at hif
  obtain rfl := Option.some.inj hif
  refine ⟨List.drop_suffix _ _, ?_⟩
  simp only [words, List.mem_cons, List.not_mem_nil, or_false] at hw
  rcases hw with rfl | rfl | rfl | rfl | rfl | rfl <;> simp

/-- In at most so many calls, what is left of a text is its end, and an object ends with a brace. -/
structure Leaves (F : FloatText) (L : Limits) (n : ℕ) : Prop where
  value : ∀ {depth : ℕ} {s : CodeText} {r : JsonValue × CodeText},
    value F L depth n s = .ok r → r.2 <:+ s ∧ ∀ es, r.1 = .dict es →
      ∃ inner, s = code '{' :: inner ++ code '}' :: r.2
  items : ∀ {depth : ℕ} {s : CodeText} {r : List JsonValue × CodeText},
    items F L depth n s = .ok r → r.2 <:+ s
  entries : ∀ {depth : ℕ} {s : CodeText} {r : JsonEntries × CodeText},
    entries F L depth n s = .ok r → ∃ inner, s = inner ++ code '}' :: r.2

lemma scalar_suffix {s : CodeText} {r : JsonValue × CodeText} (h : scalar F L s = .ok r) :
    r.2 <:+ s ∧ ∀ es, r.1 ≠ .dict es := by
  rw [scalar] at h
  cases hword : word s with
  | some w =>
    simp only [hword] at h
    obtain rfl := Except.ok.inj h
    exact word_suffix hword
  | none =>
    simp only [hword] at h
    refine ⟨number_suffix h, fun es hes => ?_⟩
    -- a number is an integer or a float
    rw [number] at h
    cases hinteger : matchInteger s with
    | none => simp [hinteger] at h
    | some i =>
      simp only [hinteger] at h
      split_ifs at h
      · rw [← Except.ok.inj h] at hes
        cases hes
      · rw [← Except.ok.inj h] at hes
        cases hes

section LeavesStep

variable {n : ℕ} (ih : Leaves F L n) {depth : ℕ}

include ih

lemma value_leaves {s : CodeText} {r : JsonValue × CodeText}
    (h : value F L depth (n + 1) s = .ok r) : r.2 <:+ s ∧ ∀ es, r.1 = .dict es →
      ∃ inner, s = code '{' :: inner ++ code '}' :: r.2 := by
  cases s with
  | nil => simp [value] at h
  | cons c s =>
    have hblanks := skip_suffix s
    rw [value.eq_def] at h
    dsimp only at h
    split_ifs at h with hquote hlist hdict
    · obtain ⟨⟨t, rest⟩, hstring, rfl⟩ := map_eq_ok_iff.mp h
      cases hread : readString s with
      | none => simp [hread, orValueError] at hstring
      | some r' =>
        simp only [hread, orValueError, Except.ok.injEq] at hstring
        subst hstring
        obtain ⟨r', hparts, hr⟩ := Option.map_eq_some_iff.mp hread
        obtain rfl := (congrArg Prod.snd hr).symm
        exact ⟨(parts_suffix hparts).trans (List.suffix_cons c s), by simp⟩
    · cases depth with
      | zero => simp at h
      | succ d =>
        cases hskip : skip s with
        | nil => simp [hskip] at h
        | cons e s' =>
          rw [hskip] at hblanks
          simp only [hskip] at h
          split_ifs at h
          · obtain rfl := Except.ok.inj h
            exact ⟨((List.suffix_cons e s').trans hblanks).trans (List.suffix_cons c s), by simp⟩
          · obtain ⟨r', hitems, rfl⟩ := map_eq_ok_iff.mp h
            exact ⟨((ih.items hitems).trans hblanks).trans (List.suffix_cons c s), by simp⟩
    · cases depth with
      | zero => simp at h
      | succ d =>
        cases hskip : skip s with
        | nil => simp [hskip] at h
        | cons e s' =>
          obtain ⟨blanks, hblanks⟩ := hskip ▸ hblanks
          simp only [hskip] at h
          -- between the braces stand the blanks and the entries
          have hends : ∃ inner, c :: s = code '{' :: inner ++ code '}' :: r.2 := by
            split_ifs at h with hclose
            · obtain rfl := Except.ok.inj h
              exact ⟨blanks, by rw [hdict, ← hblanks, hclose]; rfl⟩
            · obtain ⟨r', hentries, rfl⟩ := map_eq_ok_iff.mp h
              obtain ⟨inner, hinner⟩ := ih.entries hentries
              exact ⟨blanks ++ inner, by rw [hdict, ← hblanks, hinner]; simp⟩
          refine ⟨?_, fun _ _ => hends⟩
          obtain ⟨inner, hinner⟩ := hends
          exact ⟨code '{' :: inner ++ [code '}'], by rw [hinner]; simp⟩
    · obtain ⟨hsuffix, hnot⟩ := scalar_suffix h
      exact ⟨hsuffix, fun es hes => absurd hes (hnot es)⟩

lemma items_leaves {s : CodeText} {r : List JsonValue × CodeText}
    (h : items F L depth (n + 1) s = .ok r) : r.2 <:+ s := by
  rw [items] at h
  cases hvalue : value F L depth n s with
  | error e => simp [hvalue] at h
  | ok v =>
    have hv := (ih.value hvalue).1
    simp only [hvalue] at h
    cases hskip : skip v.2 with
    | nil => simp [hskip] at h
    | cons c s' =>
      have hs' : s' <:+ s :=
        ((List.suffix_cons c s').trans (hskip ▸ skip_suffix v.2)).trans hv
      simp only [hskip] at h
      split_ifs at h
      · obtain rfl := Except.ok.inj h
        exact hs'
      · obtain ⟨r', hitems, rfl⟩ := map_eq_ok_iff.mp h
        exact ((ih.items hitems).trans (skip_suffix s')).trans hs'

lemma entries_leaves {s : CodeText} {r : JsonEntries × CodeText}
    (h : entries F L depth (n + 1) s = .ok r) : ∃ inner, s = inner ++ code '}' :: r.2 := by
  cases s with
  | nil => simp [entries] at h
  | cons q s =>
    rw [entries] at h
    split_ifs at h
    cases hstring : readString s with
    | none => simp [hstring] at h
    | some k =>
      obtain ⟨r', hparts, hk⟩ := Option.map_eq_some_iff.mp hstring
      have hkey : k.2 <:+ s := by rw [← hk]; exact parts_suffix hparts
      simp only [hstring] at h
      cases hskip : skip k.2 with
      | nil => simp [hskip] at h
      | cons c s₁ =>
        have hs₁ : s₁ <:+ s := ((List.suffix_cons c s₁).trans (hskip ▸ skip_suffix k.2)).trans hkey
        simp only [hskip] at h
        split_ifs at h
        cases hvalue : value F L depth n (skip s₁) with
        | error e => simp [hvalue] at h
        | ok v =>
          have hv : v.2 <:+ s := ((ih.value hvalue).1.trans (skip_suffix s₁)).trans hs₁
          simp only [hvalue] at h
          cases hskip' : skip v.2 with
          | nil => simp [hskip'] at h
          | cons c' s₂ =>
            have hrest : c' :: s₂ <:+ s := (hskip' ▸ skip_suffix v.2).trans hv
            obtain ⟨front, hfront⟩ := hrest
            simp only [hskip'] at h
            split_ifs at h with hclose
            · obtain rfl := Except.ok.inj h
              exact ⟨q :: front, by rw [← hfront, hclose]; rfl⟩
            · obtain ⟨r', hentries, rfl⟩ := map_eq_ok_iff.mp h
              obtain ⟨inner, hinner⟩ := ih.entries hentries
              obtain ⟨blanks, hblanks⟩ := skip_suffix s₂
              exact ⟨q :: front ++ c' :: blanks ++ inner, by
                rw [← hfront, ← hblanks, hinner]; simp⟩

end LeavesStep

lemma leaves (n : ℕ) : Leaves F L n := by
  induction n with
  | zero => exact ⟨fun h => by simp [value] at h, fun h => by simp [items] at h,
      fun h => by simp [entries] at h⟩
  | succ n ih => exact ⟨value_leaves ih, items_leaves ih, entries_leaves ih⟩

lemma isSpace_of_blank {c : ℕ} (h : isBlank c = true) : isSpace c = true := by
  rw [isBlank, decide_eq_true_eq] at h
  simp only [List.mem_cons, List.not_mem_nil, or_false] at h
  rcases h with rfl | rfl | rfl | rfl <;> decide

/-- **The text of an object stands between braces**, if it has no blanks at its ends. -/
theorem braces_of_loads {s : CodeText} {es : JsonEntries} (hs : strip s = s)
    (h : loads F L s = .ok (.dict es)) :
    s.head? = some (code '{') ∧ s.getLast? = some (code '}') := by
  have hskip : skip s = s := by
    cases s with
    | nil => rfl
    | cons c s =>
      have hc : isSpace c = false := head_strip (t := c :: s) (by rw [hs]; rfl)
      refine skip_of_head (Bool.eq_false_iff.mpr fun hblank => ?_) s
      exact absurd (isSpace_of_blank hblank) (by simp [hc])
  rw [loads, hskip] at h
  cases hvalue : value F L L.depth (s.length + 1) s with
  | error e => simp [hvalue] at h
  | ok r =>
    simp only [hvalue] at h
    split_ifs at h with hrest
    obtain ⟨inner, hinner⟩ := ((leaves (s.length + 1)).value hvalue).2 es (Except.ok.inj h)
    refine ⟨by rw [hinner]; rfl, ?_⟩
    -- nothing stands after the brace: it would be blank
    rcases List.eq_nil_or_concat r.2 with hnil | ⟨init, c, hc⟩
    · rw [hinner, hnil, List.getLast?_concat]
    · rw [List.concat_eq_append] at hc
      have hblank : isBlank c = true :=
        List.dropWhile_eq_nil_iff.mp hrest c (by rw [hc]; simp)
      have hlast : c ∈ (strip s).getLast? := by
        rw [hs]
        exact List.getLast?_eq_some_iff.mpr
          ⟨code '{' :: inner ++ code '}' :: init, by rw [hinner, hc]; simp⟩
      exact absurd (last_strip hlast) (by simp [isSpace_of_blank hblank])

end JsonScan

end Habeny.Lib
