import Habeny.Lib.Text
import Mathlib.Data.List.Basic

/-!
# UTF-8 in pieces

A text is encoded character by character.  A decoder that ignores errors takes the characters that
it finds and leaves out every byte at which none begins.

The bytes of a text may come in pieces.  Decoded one by one, the pieces give no more than the text
(`length_flatMap_decodeIgnore_le`), and all of it exactly if each of them is the encoding of a text:
a character that is cut is lost (`flatMap_decodeIgnore_eq_iff`).
-/

namespace Habeny.Lib.Utf8

/-! ## Encoding -/

/-- `str.encode` -/
def encode (t : Text) : List UInt8 := t.flatMap String.utf8EncodeChar

@[simp] lemma encode_nil : encode [] = [] := rfl

@[simp] lemma encode_cons (c : Char) (t : Text) :
    encode (c :: t) = String.utf8EncodeChar c ++ encode t := rfl

lemma encode_append (s t : Text) : encode (s ++ t) = encode s ++ encode t := List.flatMap_append

lemma encodeChar_ne_nil (c : Char) : String.utf8EncodeChar c ≠ [] := String.utf8EncodeChar_ne_nil

/-! ## Reading a character -/

/-- The character that begins the bytes, and the bytes after it. -/
def readChar (s : List UInt8) : Option (Char × List UInt8) :=
  (s.toByteArray.utf8DecodeChar? 0).map fun c => (c, s.drop c.utf8Size)

lemma readChar_encodeChar (c : Char) (s : List UInt8) :
    readChar (String.utf8EncodeChar c ++ s) = some (c, s) := by
  rw [readChar, List.toByteArray_append, ByteArray.utf8DecodeChar?_utf8EncodeChar_append,
    Option.map_some, ← String.length_utf8EncodeChar, List.drop_left]

/-- A character is read exactly where its encoding is. -/
theorem readChar_eq_some_iff {s rest : List UInt8} {c : Char} :
    readChar s = some (c, rest) ↔ s = String.utf8EncodeChar c ++ rest := by
  constructor
  · intro h
    obtain ⟨d, hd, hrest⟩ := Option.map_eq_some_iff.mp h
    obtain ⟨rfl, rfl⟩ := Prod.mk.inj hrest
    obtain ⟨l, hl⟩ := ByteArray.exists_of_utf8DecodeChar?_eq_some hd
    have hs : s = String.utf8EncodeChar d ++ l.data.toList := by
      have hdata := congrArg (fun b : ByteArray => b.data.toList) hl
      simpa using hdata
    rw [hs, ← String.length_utf8EncodeChar, List.drop_left]
  · rintro rfl
    exact readChar_encodeChar c rest

lemma readChar_length {s rest : List UInt8} {c : Char} (h : readChar s = some (c, rest)) :
    rest.length < s.length := by
  have hpos := List.length_pos_iff.mpr (encodeChar_ne_nil c)
  rw [readChar_eq_some_iff.mp h, List.length_append]
  omega

/-- No character begins with a byte that continues one. -/
lemma readChar_continuation {b : UInt8} (h : ¬b.IsUTF8FirstByte) (s : List UInt8) :
    readChar (b :: s) = none := by
  cases hread : readChar (b :: s) with
  | none => rfl
  | some r =>
    obtain ⟨c, rest⟩ := r
    have hbytes := readChar_eq_some_iff.mp hread
    have hpos := List.length_pos_iff.mpr (encodeChar_ne_nil c)
    have hfirst : (String.utf8EncodeChar c)[0].IsUTF8FirstByte :=
      UInt8.isUTF8FirstByte_getElem_utf8EncodeChar.mpr rfl
    have hb : (String.utf8EncodeChar c)[0] = b := by
      have hget := congrArg (fun l : List UInt8 => l[0]?) hbytes
      simp only [List.getElem?_cons_zero, List.getElem?_append_left hpos,
        List.getElem?_eq_getElem hpos, Option.some.injEq] at hget
      exact hget.symm
    exact absurd (hb ▸ hfirst) h

/-! ## Decoding -/

/-- `bytes.decode`, nothing for a `UnicodeDecodeError` -/
def decode (s : List UInt8) : Option Text :=
  match _ : readChar s with
  | some (c, rest) => (decode rest).map fun t => c :: t
  | none => if s = [] then some [] else none
termination_by s.length
decreasing_by exact readChar_length ‹_›

/-- `bytes.decode(errors="ignore")`.  What follows in bytes that are in error begins no character
either, so that they may be left out one by one. -/
def decodeIgnore (s : List UInt8) : Text :=
  match _ : readChar s with
  | some (c, rest) => c :: decodeIgnore rest
  | none =>
    match s with
    | [] => []
    | _ :: s => decodeIgnore s
termination_by s.length
decreasing_by
  · exact readChar_length ‹_›
  · simp

lemma readChar_nil : readChar [] = none := by
  cases hread : readChar [] with
  | none => rfl
  | some r =>
    have hbytes := readChar_length hread
    simp at hbytes

@[simp] lemma decodeIgnore_nil : decodeIgnore [] = [] := by
  rw [decodeIgnore]
  split
  · next h =>
    rw [readChar_nil] at h
    cases h
  · rfl

lemma decodeIgnore_encodeChar (c : Char) (s : List UInt8) :
    decodeIgnore (String.utf8EncodeChar c ++ s) = c :: decodeIgnore s := by
  rw [decodeIgnore]
  split
  · next d rest h =>
    rw [readChar_encodeChar] at h
    cases h
    rfl
  · next h =>
    rw [readChar_encodeChar] at h
    cases h

/-- A byte at which no character begins is left out. -/
lemma decodeIgnore_cons {b : UInt8} {s : List UInt8} (h : readChar (b :: s) = none) :
    decodeIgnore (b :: s) = decodeIgnore s := by
  rw [decodeIgnore]
  split
  · next h' =>
    rw [h] at h'
    cases h'
  · rfl

/-- **What is encoded is decoded**, in front of anything. -/
theorem decodeIgnore_encode_append (t : Text) (s : List UInt8) :
    decodeIgnore (encode t ++ s) = t ++ decodeIgnore s := by
  induction t with
  | nil => rfl
  | cons c t ih => rw [encode_cons, List.append_assoc, decodeIgnore_encodeChar, ih, List.cons_append]

lemma decodeIgnore_encode (t : Text) : decodeIgnore (encode t) = t := by
  simpa using decodeIgnore_encode_append t []

lemma encode_injective : Function.Injective encode := fun s t h => by
  rw [← decodeIgnore_encode s, h, decodeIgnore_encode]

/-- **Decoding gives the text that was encoded**, and nothing for other bytes. -/
theorem decode_eq_some_iff {s : List UInt8} {t : Text} : decode s = some t ↔ s = encode t := by
  induction h : s.length using Nat.strongRecOn generalizing s t with
  | ind n ih =>
    rw [decode]
    split
    · next c rest hread =>
      have hlength := readChar_length hread
      obtain rfl := readChar_eq_some_iff.mp hread
      rw [Option.map_eq_some_iff]
      constructor
      · rintro ⟨u, hu, rfl⟩
        rw [encode_cons, (ih rest.length (h ▸ hlength) rfl).mp hu]
      · intro ht
        cases t with
        | nil => simp [String.utf8EncodeChar_ne_nil] at ht
        | cons d t =>
          rw [encode_cons] at ht
          have hsame := readChar_encodeChar d (encode t)
          rw [← ht, readChar_encodeChar] at hsame
          obtain ⟨rfl, hrest⟩ := Prod.mk.inj (Option.some.inj hsame)
          exact ⟨t, (ih rest.length (h ▸ hlength) rfl).mpr hrest, rfl⟩
    · next hread =>
      cases t with
      | nil => simp [eq_comm]
      | cons d t =>
        refine iff_of_false (by split_ifs <;> simp) ?_
        rintro rfl
        rw [encode_cons, readChar_encodeChar] at hread
        cases hread

/-! ## Pieces -/

/-- Bytes that continue a character. -/
def Continues (s : List UInt8) : Prop := ∀ b ∈ s, ¬b.IsUTF8FirstByte

/-- Bytes that continue a character are left out. -/
lemma decodeIgnore_continues {s : List UInt8} (h : Continues s) (rest : List UInt8) :
    decodeIgnore (s ++ rest) = decodeIgnore rest := by
  induction s with
  | nil => rfl
  | cons b s ih =>
    rw [List.cons_append, decodeIgnore_cons (readChar_continuation (h b List.mem_cons_self) _)]
    exact ih fun d hd => h d (List.mem_cons_of_mem _ hd)

/-- After its first byte a character is continued. -/
lemma continues_tail (c : Char) : Continues (String.utf8EncodeChar c).tail := by
  intro b hb
  obtain ⟨i, hi, rfl⟩ := List.getElem_of_mem hb
  rw [List.getElem_tail, UInt8.isUTF8FirstByte_getElem_utf8EncodeChar]
  omega

/-- A character that is cut: bytes before the cut and after it. -/
structure Cut (c : Char) (before after : List UInt8) : Prop where
  bytes : before ++ after = String.utf8EncodeChar c
  before_ne : before ≠ []
  after_ne : after ≠ []

lemma Cut.continues {c : Char} {before after : List UInt8} (h : Cut c before after) :
    Continues after := by
  intro b hb
  refine continues_tail c b ?_
  rw [← h.bytes, List.tail_append_of_ne_nil h.before_ne]
  exact List.mem_append_right _ hb

/-- The beginning of a character is no character. -/
lemma Cut.decodeIgnore_before {c : Char} {before after : List UInt8} (h : Cut c before after) :
    decodeIgnore before = [] := by
  obtain ⟨b, tail, rfl⟩ := List.exists_cons_of_ne_nil h.before_ne
  have hread : readChar (b :: tail) = none := by
    cases hread : readChar (b :: tail) with
    | none => rfl
    | some r =>
      obtain ⟨d, rest⟩ := r
      have hbytes := readChar_eq_some_iff.mp hread
      -- the character would be the one that is cut, and not be cut
      have hboth := readChar_encodeChar c []
      rw [List.append_nil, ← h.bytes, hbytes, List.append_assoc, readChar_encodeChar] at hboth
      obtain ⟨-, hnil⟩ := Prod.mk.inj (Option.some.inj hboth)
      exact absurd (List.append_eq_nil_iff.mp hnil).2 h.after_ne
  have htail : Continues tail := by
    intro d hd
    refine continues_tail c d ?_
    rw [← h.bytes, List.cons_append, List.tail_cons]
    exact List.mem_append_left _ hd
  rw [decodeIgnore_cons hread, ← List.append_nil tail, decodeIgnore_continues htail,
    decodeIgnore_nil]

/-- Where the bytes of a text are split: between two characters, or within one. -/
lemma encode_eq_append {t : Text} {xs ys : List UInt8} (h : encode t = xs ++ ys) :
    (∃ t₁ t₂, t = t₁ ++ t₂ ∧ xs = encode t₁ ∧ ys = encode t₂) ∨
      ∃ t₁ c t₂ before after, t = t₁ ++ c :: t₂ ∧ Cut c before after ∧
        xs = encode t₁ ++ before ∧ ys = after ++ encode t₂ := by
  induction t generalizing xs with
  | nil =>
    obtain ⟨rfl, rfl⟩ := List.append_eq_nil_iff.mp h.symm
    exact .inl ⟨[], [], rfl, rfl, rfl⟩
  | cons c t ih =>
    rw [encode_cons] at h
    rcases List.append_eq_append_iff.mp h with ⟨as, rfl, hrest⟩ | ⟨bs, hchar, rfl⟩
    · rcases ih hrest with ⟨t₁, t₂, rfl, rfl, rfl⟩ | ⟨t₁, d, t₂, before, after, rfl, hcut, rfl, rfl⟩
      · exact .inl ⟨c :: t₁, t₂, rfl, rfl, rfl⟩
      · exact .inr ⟨c :: t₁, d, t₂, before, after, rfl, hcut, by simp, rfl⟩
    · rcases xs with - | ⟨x, xs⟩
      · exact .inl ⟨[], c :: t, rfl, rfl, by rw [encode_cons, hchar]; rfl⟩
      · rcases bs with - | ⟨b, bs⟩
        · rw [List.append_nil] at hchar
          exact .inl ⟨[c], t, rfl, by simp [encode, hchar], rfl⟩
        · exact .inr ⟨[], c, t, x :: xs, b :: bs, rfl, ⟨hchar.symm, by simp, by simp⟩, rfl, rfl⟩

/-- Decoded one by one, pieces of a text give no more characters than it has, where the first piece
may begin within a character. -/
lemma length_flatMap_decodeIgnore_le {pieces : List (List UInt8)} {rest : List UInt8} {t : Text}
    (hrest : Continues rest) (h : rest ++ encode t = pieces.flatten) :
    (pieces.flatMap decodeIgnore).length ≤ t.length := by
  induction pieces generalizing rest t with
  | nil => simp
  | cons piece pieces ih =>
    rw [List.flatten_cons] at h
    rw [List.flatMap_cons, List.length_append]
    rcases List.append_eq_append_iff.mp h with ⟨as, rfl, has⟩ | ⟨bs, rfl, hbs⟩
    · rw [decodeIgnore_continues hrest]
      rcases encode_eq_append has with ⟨t₁, t₂, rfl, rfl, hys⟩ |
        ⟨t₁, c, t₂, before, after, rfl, hcut, rfl, hys⟩
      · have hnone : Continues [] := fun b hb => absurd hb List.not_mem_nil
        have hle := ih hnone hys.symm
        rw [decodeIgnore_encode, List.length_append]
        omega
      · have hle := ih hcut.continues hys.symm
        rw [decodeIgnore_encode_append, hcut.decodeIgnore_before, List.append_nil,
          List.length_append, List.length_cons]
        omega
    · have hpiece : Continues piece := fun b hb => hrest b (List.mem_append_left _ hb)
      have hbs' : Continues bs := fun b hb => hrest b (List.mem_append_right _ hb)
      have hle := ih hbs' hbs.symm
      rw [← List.append_nil piece, decodeIgnore_continues hpiece, decodeIgnore_nil,
        List.length_nil]
      omega

/-- **Pieces that are decoded one by one** give the text exactly if no character is cut, which is
that each of them is the encoding of a text. -/
theorem flatMap_decodeIgnore_eq_iff {pieces : List (List UInt8)} {t : Text}
    (h : pieces.flatten = encode t) :
    pieces.flatMap decodeIgnore = t ↔ ∀ piece ∈ pieces, ∃ u, piece = encode u := by
  constructor
  · intro hall
    have hlength : t.length ≤ (pieces.flatMap decodeIgnore).length := by rw [hall]
    clear hall
    induction pieces generalizing t with
    | nil => exact fun piece hpiece => absurd hpiece List.not_mem_nil
    | cons piece pieces ih =>
      rw [List.flatten_cons] at h
      rw [List.flatMap_cons, List.length_append] at hlength
      rcases encode_eq_append h.symm with ⟨t₁, t₂, rfl, rfl, hys⟩ |
        ⟨t₁, c, t₂, before, after, rfl, hcut, rfl, hys⟩
      · rw [decodeIgnore_encode, List.length_append] at hlength
        exact List.forall_mem_cons.mpr ⟨⟨t₁, rfl⟩, ih hys (by omega)⟩
      · -- the character that is cut is lost
        have hle := length_flatMap_decodeIgnore_le hcut.continues hys.symm
        rw [decodeIgnore_encode_append, hcut.decodeIgnore_before, List.append_nil,
          List.length_append, List.length_cons] at hlength
        omega
  · intro hall
    have hdecode : encode (pieces.flatMap decodeIgnore) = pieces.flatten := by
      clear h
      induction pieces with
      | nil => rfl
      | cons piece pieces ih =>
        obtain ⟨⟨u, rfl⟩, hpieces⟩ := List.forall_mem_cons.mp hall
        rw [List.flatMap_cons, encode_append, decodeIgnore_encode, List.flatten_cons, ih hpieces]
    exact encode_injective (hdecode.trans h)

end Habeny.Lib.Utf8
