import Habeny.Lib.Lines
import Mathlib.Data.List.GetD

/-!
# Base64

Three bytes are written as four letters, and the rest of one or two bytes as two or three letters
and padding.  The decoder reads as Python's does: what is no letter is passed over, padding that
completes a group ends the text, and a text that ends within a group is refused.

`decode_encode` reads the bytes back, and `urlsafeDecode_stripped` does so for the alphabet of file
names and URLs when the padding was taken off and put back on.
-/

namespace Habeny.Lib.Base64

open CodeText

def padding : ℕ := 61

/-- The letters, in the order of their values. -/
def alphabet : CodeText := lit "ABCDEFGHIJKLMNOPQRSTUVWXYZabcdefghijklmnopqrstuvwxyz0123456789+/"

def letter (n : ℕ) : ℕ := alphabet.getD n padding

def value (c : ℕ) : Option ℕ := alphabet.idxOf? c

/-- `base64.b64encode` -/
def encode : List ℕ → CodeText
  | [] => []
  | [a] => [letter (a / 4), letter (a % 4 * 16), padding, padding]
  | [a, b] => [letter (a / 4), letter (a % 4 * 16 + b / 16), letter (b % 16 * 4), padding]
  | a :: b :: c :: rest =>
    letter (a / 4) :: letter (a % 4 * 16 + b / 16) :: letter (b % 16 * 4 + c / 64) ::
      letter (c % 64) :: encode rest

/-- The loop of the decoder: the place in the group, the bits left over, and the padding that was
read. -/
def decodeFrom : ℕ → ℕ → ℕ → CodeText → Option (List ℕ)
  | quad, _, _, [] => if quad = 0 then some [] else none
  | quad, left, pads, c :: rest =>
    if c = padding then
      if 2 ≤ quad then
        if 4 ≤ quad + (pads + 1) then some [] else decodeFrom quad left (pads + 1) rest
      else decodeFrom quad left pads rest
    else
      match value c, quad with
      | none, _ => decodeFrom quad left pads rest
      | some v, 0 => decodeFrom 1 v 0 rest
      | some v, 1 => (decodeFrom 2 (v % 16) 0 rest).map fun bytes => (left * 4 + v / 16) :: bytes
      | some v, 2 => (decodeFrom 3 (v % 4) 0 rest).map fun bytes => (left * 16 + v / 4) :: bytes
      | some v, _ => (decodeFrom 0 0 0 rest).map fun bytes => (left * 64 + v) :: bytes

/-- `base64.b64decode` of an ASCII text. -/
def decode (text : CodeText) : Option (List ℕ) := decodeFrom 0 0 0 text

/-! ## Reading back -/

lemma alphabet_eq : alphabet = [65, 66, 67, 68, 69, 70, 71, 72, 73, 74, 75, 76, 77, 78, 79, 80, 81,
    82, 83, 84, 85, 86, 87, 88, 89, 90, 97, 98, 99, 100, 101, 102, 103, 104, 105, 106, 107, 108,
    109, 110, 111, 112, 113, 114, 115, 116, 117, 118, 119, 120, 121, 122, 48, 49, 50, 51, 52, 53,
    54, 55, 56, 57, 43, 47] := by simp [alphabet, lit]

lemma length_alphabet : alphabet.length = 64 := by rw [alphabet_eq]; rfl

lemma nodup_alphabet : alphabet.Nodup := by rw [alphabet_eq]; decide

lemma padding_notMem : padding ∉ alphabet := by rw [alphabet_eq]; decide

lemma letter_mem {n : ℕ} (hn : n < 64) : letter n ∈ alphabet := by
  rw [letter, List.getD_eq_getElem alphabet padding (length_alphabet.symm ▸ hn)]
  exact List.getElem_mem _

/-- A letter stands at one place only, so its value is read back from it. -/
lemma letter_spec {n : ℕ} (hn : n < 64) : value (letter n) = some n ∧ letter n ≠ padding := by
  have hlength : n < alphabet.length := length_alphabet.symm ▸ hn
  refine ⟨?_, fun h => padding_notMem (h ▸ letter_mem hn)⟩
  rw [value, letter, List.getD_eq_getElem alphabet padding hlength, List.idxOf?_eq_some_iff]
  refine ⟨hlength, rfl, fun j hj heq => ?_⟩
  have hplaces := (List.getElem_inj nodup_alphabet).mp heq
  omega

section Letters

variable {n : ℕ} (hn : n < 64) (left pads : ℕ) (rest : CodeText)

include hn

lemma decodeFrom_zero : decodeFrom 0 left pads (letter n :: rest) = decodeFrom 1 n 0 rest := by
  obtain ⟨hvalue, hpadding⟩ := letter_spec hn
  rw [decodeFrom.eq_def]
  dsimp only
  rw [if_neg hpadding, hvalue]
  rfl

lemma decodeFrom_one :
    decodeFrom 1 left pads (letter n :: rest) =
      (decodeFrom 2 (n % 16) 0 rest).map fun bytes => (left * 4 + n / 16) :: bytes := by
  obtain ⟨hvalue, hpadding⟩ := letter_spec hn
  rw [decodeFrom.eq_def]
  dsimp only
  rw [if_neg hpadding, hvalue]
  rfl

lemma decodeFrom_two :
    decodeFrom 2 left pads (letter n :: rest) =
      (decodeFrom 3 (n % 4) 0 rest).map fun bytes => (left * 16 + n / 4) :: bytes := by
  obtain ⟨hvalue, hpadding⟩ := letter_spec hn
  rw [decodeFrom.eq_def]
  dsimp only
  rw [if_neg hpadding, hvalue]
  rfl

lemma decodeFrom_three :
    decodeFrom 3 left pads (letter n :: rest) =
      (decodeFrom 0 0 0 rest).map fun bytes => (left * 64 + n) :: bytes := by
  obtain ⟨hvalue, hpadding⟩ := letter_spec hn
  rw [decodeFrom.eq_def]
  dsimp only
  rw [if_neg hpadding, hvalue]
  rfl

end Letters

lemma decodeFrom_one_padding (left : ℕ) : decodeFrom 2 left 0 [padding, padding] = some [] := rfl

lemma decodeFrom_two_padding (left : ℕ) : decodeFrom 3 left 0 [padding] = some [] := rfl

lemma decodeFrom_encode {bytes : List ℕ} (h : ∀ b ∈ bytes, b < 256) (left pads : ℕ) :
    decodeFrom 0 left pads (encode bytes) = some bytes := by
  induction bytes using encode.induct generalizing left pads with
  | case1 => rfl
  | case2 a =>
    have ha : a < 256 := h a List.mem_cons_self
    have hbyte : a / 4 * 4 + a % 4 * 16 / 16 = a := by omega
    rw [encode, decodeFrom_zero (by omega), decodeFrom_one (by omega), decodeFrom_one_padding,
      Option.map_some, hbyte]
  | case3 a b =>
    have ha : a < 256 := h a List.mem_cons_self
    have hb : b < 256 := h b (by simp)
    have hfirst : a / 4 * 4 + (a % 4 * 16 + b / 16) / 16 = a := by omega
    have hsecond : (a % 4 * 16 + b / 16) % 16 * 16 + b % 16 * 4 / 4 = b := by omega
    rw [encode, decodeFrom_zero (by omega), decodeFrom_one (by omega), decodeFrom_two (by omega),
      decodeFrom_two_padding, Option.map_some, Option.map_some, hfirst, hsecond]
  | case4 a b c rest ih =>
    have ha : a < 256 := h a List.mem_cons_self
    have hb : b < 256 := h b (by simp)
    have hc : c < 256 := h c (by simp)
    have hrest := ih (fun d hd => h d (by simp [hd])) 0 0
    have hfirst : a / 4 * 4 + (a % 4 * 16 + b / 16) / 16 = a := by omega
    have hsecond : (a % 4 * 16 + b / 16) % 16 * 16 + (b % 16 * 4 + c / 64) / 4 = b := by omega
    have hthird : (b % 16 * 4 + c / 64) % 4 * 64 + c % 64 = c := by omega
    rw [encode, decodeFrom_zero (by omega), decodeFrom_one (by omega), decodeFrom_two (by omega),
      decodeFrom_three (by omega), hrest, Option.map_some, Option.map_some, Option.map_some,
      hfirst, hsecond, hthird]

/-- **The bytes are read back.** -/
theorem decode_encode {bytes : List ℕ} (h : ∀ b ∈ bytes, b < 256) :
    decode (encode bytes) = some bytes := decodeFrom_encode h 0 0

/-- A text is letters, as many as are missing to a multiple of four of padding after them. -/
lemma encode_eq {bytes : List ℕ} (h : ∀ b ∈ bytes, b < 256) :
    ∃ letters pads, encode bytes = letters ++ List.replicate pads padding ∧
      (∀ c ∈ letters, c ∈ alphabet) ∧ pads = (4 - letters.length % 4) % 4 := by
  induction bytes using encode.induct with
  | case1 => exact ⟨[], 0, rfl, fun c hc => absurd hc List.not_mem_nil, rfl⟩
  | case2 a =>
    have ha : a < 256 := h a List.mem_cons_self
    refine ⟨[letter (a / 4), letter (a % 4 * 16)], 2, rfl, fun c hc => ?_, rfl⟩
    simp only [List.mem_cons, List.not_mem_nil, or_false] at hc
    rcases hc with rfl | rfl
    · exact letter_mem (by omega)
    · exact letter_mem (by omega)
  | case3 a b =>
    have ha : a < 256 := h a List.mem_cons_self
    have hb : b < 256 := h b (by simp)
    refine ⟨[letter (a / 4), letter (a % 4 * 16 + b / 16), letter (b % 16 * 4)], 1, rfl,
      fun c hc => ?_, rfl⟩
    simp only [List.mem_cons, List.not_mem_nil, or_false] at hc
    rcases hc with rfl | rfl | rfl
    · exact letter_mem (by omega)
    · exact letter_mem (by omega)
    · exact letter_mem (by omega)
  | case4 a b c rest ih =>
    have ha : a < 256 := h a List.mem_cons_self
    have hb : b < 256 := h b (by simp)
    have hc : c < 256 := h c (by simp)
    obtain ⟨letters, pads, hrest, hletters, hpads⟩ := ih fun d hd => h d (by simp [hd])
    refine ⟨letter (a / 4) :: letter (a % 4 * 16 + b / 16) :: letter (b % 16 * 4 + c / 64) ::
      letter (c % 64) :: letters, pads, ?_, fun d hd => ?_, ?_⟩
    · rw [encode, hrest]
      rfl
    · simp only [List.mem_cons] at hd
      rcases hd with rfl | rfl | rfl | rfl | hd
      · exact letter_mem (by omega)
      · exact letter_mem (by omega)
      · exact letter_mem (by omega)
      · exact letter_mem (by omega)
      · exact hletters d hd
    · simp only [List.length_cons]
      omega

/-! ## The alphabet of file names and URLs -/

def toUrlsafe (c : ℕ) : ℕ := if c = 43 then 45 else if c = 47 then 95 else c

def ofUrlsafe (c : ℕ) : ℕ := if c = 45 then 43 else if c = 95 then 47 else c

/-- `base64.urlsafe_b64encode` -/
def urlsafeEncode (bytes : List ℕ) : CodeText := (encode bytes).map toUrlsafe

/-- `base64.urlsafe_b64decode` -/
def urlsafeDecode (text : CodeText) : Option (List ℕ) := decode (text.map ofUrlsafe)

/-- Take the padding off. -/
def strip (text : CodeText) : CodeText := text.rdropWhile fun c => decide (c = padding)

/-- Put it back on. -/
def pad (text : CodeText) : CodeText :=
  text ++ List.replicate ((4 - text.length % 4) % 4) padding

lemma urlsafe_letters : ∀ c ∈ alphabet, ofUrlsafe (toUrlsafe c) = c ∧ toUrlsafe c ≠ padding := by
  rw [alphabet_eq]
  decide

/-- Without padding a text is letters of the alphabet. -/
lemma strip_urlsafeEncode {bytes : List ℕ} (h : ∀ b ∈ bytes, b < 256) :
    ∃ letters, strip (urlsafeEncode bytes) = letters.map toUrlsafe ∧
      (∀ c ∈ letters, c ∈ alphabet) ∧
      encode bytes = letters ++ List.replicate ((4 - letters.length % 4) % 4) padding := by
  obtain ⟨letters, pads, hencode, hletters, rfl⟩ := encode_eq h
  refine ⟨letters, ?_, hletters, hencode⟩
  have hpadding : (List.replicate ((4 - letters.length % 4) % 4) padding).map toUrlsafe =
      List.replicate ((4 - letters.length % 4) % 4) padding := by
    rw [List.map_replicate]
    rfl
  rw [urlsafeEncode, hencode, List.map_append, hpadding, strip, List.rdropWhile,
    List.reverse_append, List.reverse_replicate, List.dropWhile_append_of_pos]
  · cases hrev : (letters.map toUrlsafe).reverse with
    | nil => simpa using congrArg List.reverse hrev
    | cons c rest =>
      -- the last letter is no padding
      have hc : c ∈ letters.map toUrlsafe := by
        rw [← List.mem_reverse, hrev]
        exact List.mem_cons_self
      obtain ⟨d, hd, rfl⟩ := List.mem_map.mp hc
      rw [List.dropWhile_cons_of_neg (by simpa using (urlsafe_letters d (hletters d hd)).2), ← hrev,
        List.reverse_reverse]
  · intro c hc
    rw [List.eq_of_mem_replicate hc]
    rfl

/-- **The bytes are read back** when the padding was taken off and put back on. -/
theorem urlsafeDecode_stripped {bytes : List ℕ} (h : ∀ b ∈ bytes, b < 256) :
    urlsafeDecode (pad (strip (urlsafeEncode bytes))) = some bytes := by
  obtain ⟨letters, hstrip, hletters, hencode⟩ := strip_urlsafeEncode h
  have hback : (letters.map toUrlsafe).map ofUrlsafe = letters := by
    rw [List.map_map]
    exact (List.map_congr_left fun c hc => (urlsafe_letters c (hletters c hc)).1).trans
      (List.map_id letters)
  have hpadding : ∀ n, (List.replicate n padding).map ofUrlsafe = List.replicate n padding := by
    intro n
    rw [List.map_replicate]
    rfl
  rw [urlsafeDecode, hstrip, pad, List.map_append, hback, hpadding, List.length_map, ← hencode,
    decode_encode h]

end Habeny.Lib.Base64
