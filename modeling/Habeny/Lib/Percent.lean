import Habeny.Lib.Text

/-!
# Percent-encoded text

A percent-encoded text stands for a list of bytes: `%` followed by two hexadecimal digits
is one byte, any other character is its own UTF-8 encoding.  The bytes are then read as
UTF-8, a byte sequence that is not UTF-8 giving the replacement character.

The question asked of such a text is what it *begins with* once decoded.  `spelled w s`
answers it on the encoded side: it reads the word `w` off the front of `s`, each character
written as itself or as its escape, and returns what is left of `s`.  The main fact is
`prefix_unquote_iff`: the decoded text begins with an ASCII word exactly when the encoded
text spells it.
-/

namespace Habeny.Lib

/-! ## Escapes -/

/-- The value of a hexadecimal digit. -/
def hexValue (c : Char) : Option ℕ :=
  if '0' ≤ c ∧ c ≤ '9' then some (c.toNat - 48)
  else if 'A' ≤ c ∧ c ≤ 'F' then some (c.toNat - 55)
  else if 'a' ≤ c ∧ c ≤ 'f' then some (c.toNat - 87)
  else none

/-- The byte that two hexadecimal digits write. -/
def hexByte (h l : Char) : Option ℕ :=
  (hexValue h).bind fun a => (hexValue l).map fun b => 16 * a + b

/-- The bytes a percent-encoded text stands for; a `%` that two hexadecimal digits do not
follow stands for itself. -/
def unquoteToBytes : Text → List ℕ
  | [] => []
  | c :: s =>
    if c = '%' then
      match s with
      | h :: l :: s' =>
        match hexByte h l with
        | some b => b :: unquoteToBytes s'
        | none => 37 :: unquoteToBytes (h :: l :: s')
      | s => 37 :: unquoteToBytes s
    else (String.utf8EncodeChar c).map UInt8.toNat ++ unquoteToBytes s

/-! ## UTF-8 with replacement -/

/-- The character that stands for bytes that are not UTF-8. -/
def replacementChar : Char := '\uFFFD'

/-- A continuation byte of UTF-8. -/
def isContinuation (b : ℕ) : Bool := decide (0x80 ≤ b ∧ b ≤ 0xBF)

/-- The second bytes that may follow a three-byte lead: no overlong forms, no surrogates. -/
def isSecondOfThree (b₀ b₁ : ℕ) : Bool :=
  if b₀ = 0xE0 then decide (0xA0 ≤ b₁ ∧ b₁ ≤ 0xBF)
  else if b₀ = 0xED then decide (0x80 ≤ b₁ ∧ b₁ ≤ 0x9F)
  else isContinuation b₁

/-- The second bytes that may follow a four-byte lead: no overlong forms, nothing above the
last code point. -/
def isSecondOfFour (b₀ b₁ : ℕ) : Bool :=
  if b₀ = 0xF0 then decide (0x90 ≤ b₁ ∧ b₁ ≤ 0xBF)
  else if b₀ = 0xF4 then decide (0x80 ≤ b₁ ∧ b₁ ≤ 0x8F)
  else isContinuation b₁

/-- Read bytes as UTF-8, one replacement character for each maximal part that is not. -/
def decodeUtf8 : List ℕ → Text
  | [] => []
  | b₀ :: s =>
    if b₀ < 0x80 then Char.ofNat b₀ :: decodeUtf8 s
    else if 0xC2 ≤ b₀ ∧ b₀ ≤ 0xDF then
      match s with
      | [] => [replacementChar]
      | b₁ :: s₁ =>
        if isContinuation b₁ then
          Char.ofNat ((b₀ - 0xC0) * 64 + (b₁ - 0x80)) :: decodeUtf8 s₁
        else replacementChar :: decodeUtf8 (b₁ :: s₁)
    else if 0xE0 ≤ b₀ ∧ b₀ ≤ 0xEF then
      match s with
      | [] => [replacementChar]
      | b₁ :: s₁ =>
        if isSecondOfThree b₀ b₁ then
          match s₁ with
          | [] => [replacementChar]
          | b₂ :: s₂ =>
            if isContinuation b₂ then
              Char.ofNat ((b₀ - 0xE0) * 4096 + (b₁ - 0x80) * 64 + (b₂ - 0x80)) :: decodeUtf8 s₂
            else replacementChar :: decodeUtf8 (b₂ :: s₂)
        else replacementChar :: decodeUtf8 (b₁ :: s₁)
    else if 0xF0 ≤ b₀ ∧ b₀ ≤ 0xF4 then
      match s with
      | [] => [replacementChar]
      | b₁ :: s₁ =>
        if isSecondOfFour b₀ b₁ then
          match s₁ with
          | [] => [replacementChar]
          | b₂ :: s₂ =>
            if isContinuation b₂ then
              match s₂ with
              | [] => [replacementChar]
              | b₃ :: s₃ =>
                if isContinuation b₃ then
                  Char.ofNat ((b₀ - 0xF0) * 262144 + (b₁ - 0x80) * 4096 + (b₂ - 0x80) * 64
                    + (b₃ - 0x80)) :: decodeUtf8 s₃
                else replacementChar :: decodeUtf8 (b₃ :: s₃)
            else replacementChar :: decodeUtf8 (b₂ :: s₂)
        else replacementChar :: decodeUtf8 (b₁ :: s₁)
    else replacementChar :: decodeUtf8 s

/-- Percent-decode a text (`urllib.parse.unquote`). -/
def unquote (s : Text) : Text := decodeUtf8 (unquoteToBytes s)

example : unquote "a%2Fb%zz%C3%A9%FF%".toList = "a/b%zzé\uFFFD%".toList := by decide +kernel

/-! ## ASCII -/

/-- Every character of the text is ASCII. -/
def IsAscii (s : Text) : Prop := ∀ c ∈ s, c.toNat < 0x80

instance (s : Text) : Decidable (IsAscii s) := List.decidableBAll (fun c : Char => c.toNat < 0x80) s

@[simp] lemma isAscii_nil : IsAscii [] := by simp [IsAscii]

@[simp] lemma isAscii_cons {c : Char} {s : Text} : IsAscii (c :: s) ↔ c.toNat < 0x80 ∧ IsAscii s := by
  simp [IsAscii]

/-- The bytes of an ASCII text. -/
def asciiBytes (s : Text) : List ℕ := s.map Char.toNat

@[simp] lemma asciiBytes_nil : asciiBytes [] = [] := rfl

@[simp] lemma asciiBytes_cons (c : Char) (s : Text) :
    asciiBytes (c :: s) = c.toNat :: asciiBytes s := rfl

lemma utf8EncodeChar_ascii {c : Char} (h : c.toNat < 0x80) :
    (String.utf8EncodeChar c).map UInt8.toNat = [c.toNat] := by
  have hle : c.val ≤ 0x7f := by
    rw [UInt32.le_iff_toNat_le]
    have : c.val.toNat = c.toNat := rfl
    simp only [UInt32.reduceToNat]
    omega
  have hsize : c.utf8Size = 1 := by simp [Char.utf8Size, hle]
  rw [String.utf8EncodeChar_eq_singleton hsize]
  have : c.val.toNat = c.toNat := rfl
  simp only [List.map_cons, List.map_nil, UInt32.toNat_toUInt8, this]
  rw [Nat.mod_eq_of_lt (by omega)]

lemma decodeUtf8_cons_ascii {b : ℕ} (h : b < 0x80) (s : List ℕ) :
    decodeUtf8 (b :: s) = Char.ofNat b :: decodeUtf8 s := by
  rw [decodeUtf8.eq_def]
  simp only [if_pos h]

lemma toNat_ofNat_of_valid {n : ℕ} (h : n.isValidChar) : (Char.ofNat n).toNat = n := by
  rw [Char.ofNat, dif_pos h]
  rfl

lemma toNat_ofNat_ge {n : ℕ} (h : 0x80 ≤ n) (hv : n < 0xD800 ∨ 0xDFFF < n ∧ n < 0x110000) :
    0x80 ≤ (Char.ofNat n).toNat := by
  rw [toNat_ofNat_of_valid hv]
  exact h

/-- Bytes that begin above ASCII decode to a text that begins above ASCII. -/
lemma decodeUtf8_cons_ge {b : ℕ} (h : 0x80 ≤ b) (s : List ℕ) :
    ∃ c t, decodeUtf8 (b :: s) = c :: t ∧ 0x80 ≤ c.toNat := by
  have hrep : 0x80 ≤ replacementChar.toNat := by decide
  rw [decodeUtf8.eq_def]
  simp only [if_neg (show ¬b < 0x80 by omega)]
  split_ifs with h2 h3 h4
  · rcases s with _ | ⟨b₁, s₁⟩
    · exact ⟨_, _, rfl, hrep⟩
    · dsimp only
      split_ifs with h5
      · refine ⟨_, _, rfl, toNat_ofNat_ge ?_ ?_⟩ <;>
          simp only [isContinuation, decide_eq_true_eq] at h5 <;> omega
      · exact ⟨_, _, rfl, hrep⟩
  · rcases s with _ | ⟨b₁, _ | ⟨b₂, s₂⟩⟩
    · exact ⟨_, _, rfl, hrep⟩
    · dsimp only
      split_ifs <;> exact ⟨_, _, rfl, hrep⟩
    · dsimp only
      split_ifs with h5 h6
      · refine ⟨_, _, rfl, toNat_ofNat_ge ?_ ?_⟩ <;>
          simp only [isSecondOfThree, isContinuation] at h5 h6 <;>
          split_ifs at h5 <;> simp only [decide_eq_true_eq] at h5 h6 <;> omega
      · exact ⟨_, _, rfl, hrep⟩
      · exact ⟨_, _, rfl, hrep⟩
  · rcases s with _ | ⟨b₁, _ | ⟨b₂, _ | ⟨b₃, s₃⟩⟩⟩
    · exact ⟨_, _, rfl, hrep⟩
    · dsimp only
      split_ifs <;> exact ⟨_, _, rfl, hrep⟩
    · dsimp only
      split_ifs <;> exact ⟨_, _, rfl, hrep⟩
    · dsimp only
      split_ifs with h5 h6 h7
      · refine ⟨_, _, rfl, toNat_ofNat_ge ?_ ?_⟩ <;>
          simp only [isSecondOfFour, isContinuation] at h5 h6 h7 <;>
          split_ifs at h5 <;> simp only [decide_eq_true_eq] at h5 h6 h7 <;> omega
      · exact ⟨_, _, rfl, hrep⟩
      · exact ⟨_, _, rfl, hrep⟩
      · exact ⟨_, _, rfl, hrep⟩
  · exact ⟨_, _, rfl, hrep⟩

/-- Decoding does not look past an ASCII prefix. -/
lemma decodeUtf8_ascii_append {w : Text} (hw : IsAscii w) (bs : List ℕ) :
    decodeUtf8 (asciiBytes w ++ bs) = w ++ decodeUtf8 bs := by
  induction w with
  | nil => rfl
  | cons c w ih =>
    obtain ⟨hc, hw⟩ := isAscii_cons.mp hw
    rw [asciiBytes_cons, List.cons_append, decodeUtf8_cons_ascii hc, ih hw, Char.ofNat_toNat]
    rfl

/-- A decoded text begins with an ASCII word exactly when the bytes begin with its bytes. -/
lemma prefix_decodeUtf8_iff {w : Text} (hw : IsAscii w) {bs : List ℕ} :
    w <+: decodeUtf8 bs ↔ asciiBytes w <+: bs := by
  constructor
  · intro h
    induction w generalizing bs with
    | nil => simp
    | cons c w ih =>
      have hc := (isAscii_cons.mp hw).1
      rcases bs with _ | ⟨b, bs⟩
      · exact absurd (List.prefix_nil.mp h) (List.cons_ne_nil _ _)
      · by_cases hb : b < 0x80
        · rw [decodeUtf8_cons_ascii hb, List.cons_prefix_cons] at h
          obtain ⟨rfl, h⟩ := h
          have hbv : (Char.ofNat b).toNat = b := toNat_ofNat_of_valid (Or.inl (by omega))
          rw [asciiBytes_cons, hbv, List.cons_prefix_cons]
          exact ⟨rfl, ih (isAscii_cons.mp hw).2 h⟩
        · -- the first character would not be ASCII
          obtain ⟨d, t, hd, hge⟩ := decodeUtf8_cons_ge (Nat.le_of_not_lt hb) bs
          rw [hd, List.cons_prefix_cons] at h
          obtain ⟨rfl, -⟩ := h
          omega
  · rintro ⟨t, rfl⟩
    rw [decodeUtf8_ascii_append hw]
    exact List.prefix_append _ _

/-- A character that is no `%` stands for its bytes. -/
lemma unquoteToBytes_literal {c : Char} (hne : ¬c = '%') (s : Text) :
    unquoteToBytes (c :: s) = (String.utf8EncodeChar c).map UInt8.toNat ++ unquoteToBytes s := by
  rw [unquoteToBytes.eq_def]
  simp only [if_neg hne]

lemma unquoteToBytes_literal_append {w : Text} (hw : IsAscii w) (hp : '%' ∉ w) (s : Text) :
    unquoteToBytes (w ++ s) = asciiBytes w ++ unquoteToBytes s := by
  induction w with
  | nil => rfl
  | cons c w ih =>
    obtain ⟨hc, hw⟩ := isAscii_cons.mp hw
    have hne : ¬c = '%' := fun h => hp (by simp [h])
    rw [List.cons_append, unquoteToBytes_literal hne, utf8EncodeChar_ascii hc,
      ih hw fun h => hp (List.mem_cons_of_mem _ h)]
    rfl

/-- An ASCII word without `%` at the front of a text is left as it is. -/
lemma unquote_literal_append {w : Text} (hw : IsAscii w) (hp : '%' ∉ w) (s : Text) :
    unquote (w ++ s) = w ++ unquote s := by
  rw [unquote, unquoteToBytes_literal_append hw hp, decodeUtf8_ascii_append hw, unquote]

/-! ## Spelled words -/

/-- The byte that a `%` stands for, given the text after it, and what is left of that text. -/
def readEscape : Text → ℕ × Text
  | h :: l :: s =>
    match hexByte h l with
    | some b => (b, s)
    | none => (37, h :: l :: s)
  | s => (37, s)

/-- The first byte an ASCII text stands for, and the text after it. -/
def readUnit : Text → Option (ℕ × Text)
  | [] => none
  | c :: s => some (if c = '%' then readEscape s else (c.toNat, s))

/-- Read a word off the front of a percent-encoded text, each of its characters written as
itself or as its escape; the result is what follows the word. -/
def spelled : Text → Text → Option Text
  | [], s => some s
  | c :: w, s =>
    match readUnit s with
    | some (b, s') => if b = c.toNat then spelled w s' else none
    | none => none

@[simp] lemma readUnit_nil : readUnit [] = none := rfl

lemma readUnit_cons (c : Char) (s : Text) :
    readUnit (c :: s) = some (if c = '%' then readEscape s else (c.toNat, s)) := rfl

@[simp] lemma spelled_nil (s : Text) : spelled [] s = some s := rfl

lemma spelled_cons (c : Char) (w s : Text) :
    spelled (c :: w) s =
      match readUnit s with
      | some (b, s') => if b = c.toNat then spelled w s' else none
      | none => none := rfl

lemma unquoteToBytes_of_readEscape {s : Text} (hs : IsAscii s) :
    unquoteToBytes ('%' :: s) = (readEscape s).1 :: unquoteToBytes (readEscape s).2 ∧
      IsAscii (readEscape s).2 := by
  rw [unquoteToBytes.eq_def]
  rcases s with _ | ⟨x, _ | ⟨y, s⟩⟩
  · exact ⟨rfl, hs⟩
  · exact ⟨rfl, hs⟩
  · cases hb : hexByte x y with
    | none =>
      simp only [readEscape, hb, if_true]
      exact ⟨trivial, hs⟩
    | some v =>
      simp only [readEscape, hb, if_true]
      exact ⟨trivial, (isAscii_cons.mp (isAscii_cons.mp hs).2).2⟩

/-- One unit of the text is one byte of what it stands for. -/
lemma unquoteToBytes_of_readUnit {s s' : Text} {b : ℕ} (hs : IsAscii s)
    (h : readUnit s = some (b, s')) : unquoteToBytes s = b :: unquoteToBytes s' ∧ IsAscii s' := by
  rcases s with _ | ⟨c, s⟩
  · cases h
  · obtain ⟨hc, hs⟩ := isAscii_cons.mp hs
    rw [readUnit_cons, Option.some.injEq] at h
    by_cases hp : c = '%'
    · rw [if_pos hp] at h
      have hesc := unquoteToBytes_of_readEscape hs
      rw [h] at hesc
      rw [hp]
      exact hesc
    · rw [if_neg hp, Prod.mk.injEq] at h
      obtain ⟨rfl, rfl⟩ := h
      rw [unquoteToBytes_literal hp, utf8EncodeChar_ascii hc]
      exact ⟨rfl, hs⟩

lemma readUnit_eq_none {s : Text} (h : readUnit s = none) : s = [] := by
  cases s with
  | nil => rfl
  | cons c s => cases h

/-- What a spelled word stands for, and that the rest of the text is left as it is. -/
lemma unquoteToBytes_of_spelled {w s r : Text} (hs : IsAscii s) (h : spelled w s = some r) :
    unquoteToBytes s = asciiBytes w ++ unquoteToBytes r ∧ IsAscii r := by
  induction w generalizing s with
  | nil =>
    simp only [spelled_nil, Option.some.injEq] at h
    subst h
    exact ⟨rfl, hs⟩
  | cons c w ih =>
    rw [spelled_cons] at h
    cases hu : readUnit s with
    | none => simp [hu] at h
    | some u =>
      obtain ⟨b, s'⟩ := u
      simp only [hu] at h
      split_ifs at h with hb
      obtain ⟨hbytes, hs'⟩ := unquoteToBytes_of_readUnit hs hu
      obtain ⟨hrest, hr⟩ := ih hs' h
      rw [hbytes, hrest, hb]
      exact ⟨rfl, hr⟩

lemma spelled_of_prefix_bytes {w s : Text} (hs : IsAscii s)
    (h : asciiBytes w <+: unquoteToBytes s) : ∃ r, spelled w s = some r := by
  induction w generalizing s with
  | nil => exact ⟨s, rfl⟩
  | cons c w ih =>
    cases hu : readUnit s with
    | none =>
      rw [readUnit_eq_none hu] at h
      exact absurd (List.prefix_nil.mp h) (List.cons_ne_nil _ _)
    | some u =>
      obtain ⟨b, s'⟩ := u
      obtain ⟨hbytes, hs'⟩ := unquoteToBytes_of_readUnit hs hu
      rw [hbytes, asciiBytes_cons, List.cons_prefix_cons] at h
      obtain ⟨r, hr⟩ := ih hs' h.2
      exact ⟨r, by rw [spelled_cons, hu]; simp [h.1, hr]⟩

/-- A spelled word is what the decoded text begins with. -/
lemma unquote_of_spelled {w s r : Text} (hw : IsAscii w) (hs : IsAscii s)
    (h : spelled w s = some r) : unquote s = w ++ unquote r := by
  rw [unquote, (unquoteToBytes_of_spelled hs h).1, decodeUtf8_ascii_append hw, unquote]

/-- **Prefixes of decoded texts.**  A percent-decoded ASCII text begins with an ASCII word
exactly when the text spells the word. -/
theorem prefix_unquote_iff {w s : Text} (hw : IsAscii w) (hs : IsAscii s) :
    w <+: unquote s ↔ ∃ r, spelled w s = some r := by
  constructor
  · intro h
    exact spelled_of_prefix_bytes hs ((prefix_decodeUtf8_iff hw).mp h)
  · rintro ⟨r, hr⟩
    rw [unquote_of_spelled hw hs hr]
    exact List.prefix_append _ _

/-- Without a `%` a word is spelled only where it stands literally. -/
lemma eq_append_of_spelled {w s r : Text} (hs : '%' ∉ s) (h : spelled w s = some r) :
    s = w ++ r := by
  induction w generalizing s with
  | nil => simpa using h
  | cons c w ih =>
    rcases s with _ | ⟨d, s⟩
    · cases h
    · have hd : ¬d = '%' := fun h => hs (by simp [h])
      simp only [spelled_cons, readUnit_cons, if_neg hd] at h
      split_ifs at h with heq
      rw [ih (fun h => hs (List.mem_cons_of_mem _ h)) h, Char.toNat_inj.mp heq]
      rfl

lemma spelled_append_word (v w s : Text) :
    spelled (v ++ w) s = (spelled v s).bind (spelled w) := by
  induction v generalizing s with
  | nil => rfl
  | cons c v ih =>
    rw [List.cons_append, spelled_cons, spelled_cons]
    cases readUnit s with
    | none => rfl
    | some u =>
      dsimp only
      split_ifs
      · exact ih u.2
      · rfl

/-! ## Paths at or below a word -/

/-- A path spells a word: it spells it up to its end, or up to a slash. -/
def spelledPath (w s : Text) : Bool :=
  match spelled w s with
  | some [] => true
  | some r => (spelled ['/'] r).isSome
  | none => false

lemma decodeUtf8_eq_nil {bs : List ℕ} (h : decodeUtf8 bs = []) : bs = [] := by
  rcases bs with _ | ⟨b, bs⟩
  · rfl
  · by_cases hb : b < 0x80
    · simp [decodeUtf8_cons_ascii hb] at h
    · obtain ⟨c, t, hc, -⟩ := decodeUtf8_cons_ge (Nat.le_of_not_lt hb) bs
      simp [hc] at h

lemma unquote_eq_nil {s : Text} (hs : IsAscii s) (h : unquote s = []) : s = [] := by
  rcases s with _ | ⟨c, s⟩
  · rfl
  · obtain ⟨u, hu⟩ : ∃ u, readUnit (c :: s) = some u := ⟨_, rfl⟩
    have hbytes := (unquoteToBytes_of_readUnit hs hu).1
    rw [unquote, hbytes] at h
    exact absurd (decodeUtf8_eq_nil h) (by simp)

/-- A percent-decoded ASCII path is a word, or lies below it, exactly when the path spells the
word up to its end or up to a slash. -/
theorem unquote_eq_or_below_iff {w s : Text} (hw : IsAscii w) (hs : IsAscii s) :
    (unquote s = w ∨ w ++ ['/'] <+: unquote s) ↔ spelledPath w s = true := by
  have hslash : IsAscii ['/'] := by decide
  have hw' : IsAscii (w ++ ['/']) := fun c hc => by
    rcases List.mem_append.mp hc with hc | hc
    · exact hw c hc
    · exact hslash c hc
  rw [prefix_unquote_iff hw' hs, spelledPath]
  cases hr : spelled w s with
  | none =>
    have hne : unquote s ≠ w := fun h => by
      obtain ⟨r, hr'⟩ := (prefix_unquote_iff hw hs).mp (h ▸ List.prefix_rfl)
      simp [hr] at hr'
    simp [hne, spelled_append_word, hr]
  | some r =>
    have heq : unquote s = w ↔ r = [] := by
      rw [unquote_of_spelled hw hs hr, List.append_right_eq_self]
      exact ⟨unquote_eq_nil (unquoteToBytes_of_spelled hs hr).2, fun h => by subst h; rfl⟩
    rw [heq, spelled_append_word, hr, Option.bind_some]
    rcases r with _ | ⟨c, r⟩
    · simp
    · simp [Option.isSome_iff_exists]

end Habeny.Lib
