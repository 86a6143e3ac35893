import Habeny.Lib.PathText
import Habeny.Lib.Shell

/-!
# Paths in a container

The paths that the console takes for files in a container: absolute ones, of letters, digits and a
few other characters, which do not go up.  None of the characters means anything to a shell, and
every part that is not empty and not a single dot is a name.
-/

namespace Habeny.Logs

open Habeny.Lib CodeText

/-- The characters of a path. -/
def isPathChar (c : ℕ) : Bool := Shell.isNameChar c || decide (c ∈ lit "-.@+/")

/-- `validate_container_path` -/
def validateContainerPath : CodeText → Bool
  | [] => false
  | c :: rest =>
    c == slash && decide (rest.length ≤ 4095) && rest.all isPathChar &&
      !((c :: rest).splitOn slash).contains (lit "..")

/-- A path that the check accepts. -/
@[ext]
structure ContainerPath where
  text : CodeText
  valid : validateContainerPath text = true
  deriving DecidableEq

namespace ContainerPath

variable (p : ContainerPath)

lemma exists_cons : ∃ rest, p.text = slash :: rest ∧ (∀ c ∈ rest, isPathChar c = true) ∧
    lit ".." ∉ p.text.splitOn slash := by
  have hvalid := p.valid
  match htext : p.text with
  | [] =>
    rw [htext] at hvalid
    cases hvalid
  | c :: rest =>
    rw [htext, validateContainerPath] at hvalid
    simp only [Bool.and_eq_true, beq_iff_eq, List.all_eq_true, Bool.not_eq_true',
      ← Bool.not_eq_true, List.contains_iff_mem] at hvalid
    obtain ⟨⟨⟨rfl, -⟩, hrest⟩, hup⟩ := hvalid
    exact ⟨rest, rfl, hrest, hup⟩

lemma slash_mem : slash ∈ p.text := by
  obtain ⟨rest, htext, -⟩ := p.exists_cons
  rw [htext]
  exact List.mem_cons_self

/-- The codes of the characters. -/
lemma code_cases {c : ℕ} (hc : c ∈ p.text) :
    48 ≤ c ∧ c ≤ 57 ∨ 65 ≤ c ∧ c ≤ 90 ∨ 97 ≤ c ∧ c ≤ 122 ∨ c = 95 ∨ c = 46 ∨ c = 64 ∨ c = 43 ∨
      c = 47 ∨ c = 45 := by
  obtain ⟨rest, htext, hrest, -⟩ := p.exists_cons
  rw [htext] at hc
  rcases List.mem_cons.mp hc with rfl | hc
  · decide
  · have hchar := hrest c hc
    have hlit : lit "-.@+/" = [45, 46, 64, 43, 47] := by decide
    simp only [isPathChar, Shell.isNameChar, Shell.isNameStart, Shell.isDigit, hlit,
      Bool.or_eq_true, decide_eq_true_eq, List.mem_cons, List.not_mem_nil, or_false] at hchar
    omega

/-- The names that a path leads along. -/
def target : Path := (Path.ofText p.text).getD []

/-- Every part of a path is a name. -/
theorem ofText_text : Path.ofText p.text = some p.target := by
  have hnames : ∀ part ∈ Path.parts p.text, IsEntryName part := by
    intro part hpart
    obtain ⟨hsplit, hne⟩ := List.mem_filter.mp hpart
    obtain ⟨-, -, -, hup⟩ := p.exists_cons
    have hne := of_decide_eq_true hne
    obtain ⟨hslash, hchars⟩ := Path.of_mem_splitOn hsplit
    have hzero : 0 ∉ part := by
      intro h
      have := p.code_cases (hchars 0 h)
      omega
    exact ⟨hne.1, hne.2, fun h => hup (h ▸ hsplit), hslash, hzero⟩
  have hpath : ((Path.parts p.text).attach.map fun part =>
      (⟨part.val, hnames part.val part.property⟩ : EntryName)).map Subtype.val =
        Path.parts p.text := by
    simp
  rw [target, Path.ofText, Path.ofParts_eq_some_iff.mpr hpath]
  rfl

end ContainerPath

end Habeny.Logs
