import Habeny.Lib.Utf8

/-!
# What a console writes

The bytes that a container's console writes are read in pieces of at most 1024 bytes, and every
piece is decoded by itself, without what is in error in it, and sent to the browser as a message.
`arrives_unaltered_iff` says which pieces together are the text that was written.
-/

namespace Habeny.Console

open Habeny.Lib Utf8

/-- The bytes that a console writes, which are a text. -/
structure ConsoleOutput where
  bytes : List UInt8
  text : Text
  decodes : decode bytes = some text

/-- How the bytes are read, until a read returns none. -/
structure Reads (output : ConsoleOutput) where
  pieces : List (List UInt8)
  flatten_eq : pieces.flatten = output.bytes
  nonempty : ∀ data ∈ pieces, data ≠ []
  length_le : ∀ data ∈ pieces, data.length ≤ 1024

/-- Send what is read to the browser (`read_pty`). -/
def readPty : List (List UInt8) → List Text
  | [] => []
  | data :: rest => if data = [] then [] else decodeIgnore data :: readPty rest

/-- The messages of a session, the last read of which returns nothing. -/
def messages {output : ConsoleOutput} (r : Reads output) : List Text := readPty (r.pieces ++ [[]])

lemma readPty_append {pieces rest : List (List UInt8)} (h : ∀ data ∈ pieces, data ≠ []) :
    readPty (pieces ++ rest) = pieces.map decodeIgnore ++ readPty rest := by
  induction pieces with
  | nil => rfl
  | cons data pieces ih =>
    obtain ⟨hdata, hpieces⟩ := List.forall_mem_cons.mp h
    rw [List.cons_append, readPty, if_neg hdata, ih hpieces]
    rfl

lemma messages_eq {output : ConsoleOutput} (r : Reads output) :
    messages r = r.pieces.map decodeIgnore := by
  rw [messages, readPty_append r.nonempty]
  exact List.append_nil _

/-- **Which output arrives unaltered**: that of which every piece that is read is UTF-8 by itself,
so that no character is cut. -/
theorem arrives_unaltered_iff (output : ConsoleOutput) (r : Reads output) :
    (messages r).flatten = output.text ↔ ∀ data ∈ r.pieces, (decode data).isSome = true := by
  have hbytes : r.pieces.flatten = encode output.text :=
    r.flatten_eq.trans (decode_eq_some_iff.mp output.decodes)
  rw [messages_eq, ← List.flatMap_def, flatMap_decodeIgnore_eq_iff hbytes]
  refine forall₂_congr fun data _ => ?_
  rw [Option.isSome_iff_exists]
  exact exists_congr fun u => decode_eq_some_iff.symm

/-- `é`, of two bytes, which are read one by one. -/
def eAcute : ConsoleOutput where
  bytes := encode "é".toList
  text := "é".toList
  decodes := decode_eq_some_iff.mpr rfl

def oneByOne : Reads eAcute where
  pieces := [[0xC3], [0xA9]]
  flatten_eq := by decide
  nonempty := by decide
  length_le := by decide

/-- Nothing arrives of a character that is cut. -/
theorem cut_character_lost : ¬(messages oneByOne).flatten = eAcute.text := by
  have hcut : Cut 'é' [0xC3] [0xA9] := ⟨by decide, by decide, by decide⟩
  have hafter : decodeIgnore [0xA9] = [] := by
    rw [← List.append_nil [0xA9], decodeIgnore_continues hcut.continues, decodeIgnore_nil]
  have hlost : (messages oneByOne).flatten = [] := by
    rw [messages_eq]
    show decodeIgnore [0xC3] ++ (decodeIgnore [0xA9] ++ []) = []
    rw [hcut.decodeIgnore_before, hafter]
    rfl
  rw [hlost]
  exact List.cons_ne_nil _ _ ∘ Eq.symm

end Habeny.Console
