import LadderDiagram.Text.Blank
import Mathlib.Data.List.DropRight

/-!
# Trimmed text

Trimming takes blanks away at both ends and nothing else, and trimming again takes
nothing more.
-/

namespace LadderDiagram
namespace Text

/-- Trimming takes blanks from both ends. -/
theorem exists_blanks_around (chars : List Char) :
    ∃ front back, chars = front ++ trimChars chars ++ back ∧
      (∀ char ∈ front, isBlank char) ∧ ∀ char ∈ back, isBlank char := by
  have first : chars.takeWhile isBlank ++ trimStart chars = chars :=
    List.takeWhile_append_dropWhile
  have last : trimChars chars ++ (trimStart chars).rtakeWhile isBlank = trimStart chars :=
    List.rdropWhile_append_rtakeWhile
  refine ⟨chars.takeWhile isBlank, (trimStart chars).rtakeWhile isBlank, ?_, ?_, ?_⟩
  · rw [List.append_assoc, last, first]
  · exact fun char member => List.mem_takeWhile_imp member
  · exact fun char member => List.mem_rtakeWhile_imp member

/-- A trimmed text has no blank in front, because its first character is the one that was left. -/
theorem trimStart_trimChars (chars : List Char) :
    trimStart (trimChars chars) = trimChars chars := by
  have solid := List.dropWhile_eq_self_iff.mp (List.dropWhile_idempotent isBlank chars)
  have start : trimChars chars <+: trimStart chars := List.rdropWhile_prefix isBlank _
  apply List.dropWhile_eq_self_iff.mpr
  intro nonempty
  rw [start.getElem nonempty]
  exact solid (Nat.lt_of_lt_of_le nonempty start.length_le)

@[simp] theorem trimChars_trimChars (chars : List Char) :
    trimChars (trimChars chars) = trimChars chars := by
  rw [trimChars, trimStart_trimChars]
  exact List.rdropWhile_idempotent isBlank (trimStart chars)

@[simp] theorem trim_trim (text : String) : trim (trim text) = trim text := by
  unfold trim
  rw [String.toList_ofList, trimChars_trimChars]

/-- What is left of a text says something if the text does. -/
theorem isBlankText_trim (text : String) : isBlankText (trim text) = isBlankText text := by
  obtain ⟨front, back, split, frontBlank, backBlank⟩ := exists_blanks_around text.toList
  rw [isBlankText, isBlankText, trim, String.toList_ofList]
  conv_rhs =>
    rw [split, List.all_append, List.all_append, List.all_eq_true.mpr frontBlank,
      List.all_eq_true.mpr backBlank, Bool.true_and, Bool.and_true]

theorem trimChars_eq_self {chars : List Char} (solid : ∀ char ∈ chars, ¬ isBlank char) :
    trimChars chars = chars := by
  have start : trimStart chars = chars := by
    apply List.dropWhile_eq_self_iff.mpr
    exact fun nonempty => solid _ (List.getElem_mem nonempty)
  rw [trimChars, start]
  apply List.rdropWhile_eq_self_iff.mpr
  exact fun nonempty => solid _ (List.getLast_mem nonempty)

/-! ### Letters and digits -/

/-- Two characters of which only one passes a test. -/
theorem ne_of_test {test : Char → Bool} {char other : Char} (passes : test char = true)
    (fails : test other = false) : char ≠ other := by
  rintro rfl
  rw [passes] at fails
  cases fails

/-- Letters and digits are among the first 128 characters. -/
theorem toNat_lt_of_isAlphanum {char : Char} (plain : char.isAlphanum) : char.toNat < 128 := by
  have below_of_le {last : Char} (within : char.val ≤ last.val) (ends : last.toNat < 128) :
      char.toNat < 128 := Nat.lt_of_le_of_lt (UInt32.le_iff_toNat_le.mp within) ends
  rcases Bool.or_eq_true_iff.mp plain with letter | digit
  · rcases Bool.or_eq_true_iff.mp letter with upper | lower
    · exact below_of_le (of_decide_eq_true upper).2 (by decide)
    · exact below_of_le (of_decide_eq_true (Bool.and_eq_true_iff.mp lower).2) (by decide)
  · exact below_of_le (of_decide_eq_true (Bool.and_eq_true_iff.mp digit).2) (by decide)

theorem not_isBlank_of_isAlphanum {char : Char} (plain : char.isAlphanum) :
    isBlank char = false := by
  have checked : ∀ code < 128, (Char.ofNat code).isAlphanum →
      isBlank (Char.ofNat code) = false := by
    decide
  have bounded := toNat_lt_of_isAlphanum plain
  rw [← Char.ofNat_toNat char] at plain ⊢
  exact checked char.toNat bounded plain

end Text
end LadderDiagram
