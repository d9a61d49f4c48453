import LadderDiagram.Proofs.Text.Trim
import LadderDiagram.RungText.Parser

/-!
# Canonical instructions

An instruction is canonical when it is the one that is read back from its own text.
Its mnemonic is an upper-case identifier, and each operand is trimmed and closes every
parenthesis that it opens, with no comma outside of them.  The one list of operands that is
excluded is that of one empty operand, which is written like no operand at all.
-/

namespace LadderDiagram
namespace RungText

/-- A mnemonic: a letter or underscore, then letters, digits and underscores. -/
def IsMnemonic (chars : List Char) : Prop :=
  ∃ first rest, chars = first :: rest ∧ startsMnemonic first ∧
    ∀ char ∈ rest, continuesMnemonic char

/--
The number of open parentheses after one more character of an operand; none if the
character ends the operand, as a comma and a closing parenthesis do outside of them.
-/
def depthAfterChar? (depth : Nat) (char : Char) : Option Nat :=
  match operandPunctuation? char, depth with
  | some .leftParenthesis, depth => some (depth + 1)
  | some .rightParenthesis, 0 => none
  | some .rightParenthesis, depth + 1 => some depth
  | some .operandSeparator, 0 => none
  | _, depth => some depth

/-- The number of open parentheses after a run of characters, none of which ends the operand. -/
def depthAfter? (depth : Nat) (chars : List Char) : Option Nat :=
  chars.foldlM depthAfterChar? depth

/-- An operand as it is written back: trimmed, and with parentheses that pair up. -/
structure IsOperand (operand : String) : Prop where
  trimmed : Text.trim operand = operand
  closes : depthAfter? 0 operand.toList = some 0

/-! ### Mnemonics -/

theorem continuesMnemonic_of_startsMnemonic {char : Char} (starts : startsMnemonic char) :
    continuesMnemonic char := by
  rcases Bool.or_eq_true_iff.mp starts with letter | underscore
  · simp [continuesMnemonic, Char.isAlphanum, letter]
  · simp [continuesMnemonic, underscore]

/-- The characters of mnemonics are among the first 128. -/
theorem toNat_lt_of_continuesMnemonic {char : Char} (continues : continuesMnemonic char) :
    char.toNat < 128 := by
  rcases Bool.or_eq_true_iff.mp continues with alphanumeric | underscore
  · exact Text.toNat_lt_of_isAlphanum alphanumeric
  · rw [beq_iff_eq.mp underscore]
    decide

/-- What upper-casing and trimming do to a character of a mnemonic. -/
theorem upper_of_continuesMnemonic {char : Char} (continues : continuesMnemonic char) :
    ¬ Text.isBlank char ∧ continuesMnemonic char.toUpper ∧
      char.toUpper.toUpper = char.toUpper ∧
      (startsMnemonic char → startsMnemonic char.toUpper) := by
  have checked : ∀ code < 128, continuesMnemonic (Char.ofNat code) →
      ¬ Text.isBlank (Char.ofNat code) ∧ continuesMnemonic (Char.ofNat code).toUpper ∧
        (Char.ofNat code).toUpper.toUpper = (Char.ofNat code).toUpper ∧
        (startsMnemonic (Char.ofNat code) → startsMnemonic (Char.ofNat code).toUpper) := by
    decide
  have bounded := toNat_lt_of_continuesMnemonic continues
  rw [← Char.ofNat_toNat char] at continues ⊢
  exact checked char.toNat bounded continues

section Mnemonics

variable {chars : List Char}

theorem IsMnemonic.continues (isMnemonic : IsMnemonic chars) :
    ∀ char ∈ chars, continuesMnemonic char := by
  obtain ⟨first, rest, rfl, starts, continues⟩ := isMnemonic
  intro char member
  rcases List.mem_cons.mp member with rfl | member
  · exact continuesMnemonic_of_startsMnemonic starts
  · exact continues char member

theorem upperChars_of_continues (continues : ∀ char ∈ chars, continuesMnemonic char) :
    Text.upperChars chars = chars.map Char.toUpper := by
  unfold Text.upperChars
  rw [List.map_eq_flatMap]
  apply List.flatMap_congr
  intro char member
  have bounded := toNat_lt_of_continuesMnemonic (continues char member)
  exact if_pos bounded

theorem IsMnemonic.trimChars_eq (isMnemonic : IsMnemonic chars) : Text.trimChars chars = chars :=
  Text.trimChars_eq_self fun char member =>
    (upper_of_continuesMnemonic (isMnemonic.continues char member)).1

/-- The upper-case form of a mnemonic is a mnemonic, and it is its own upper-case form. -/
theorem IsMnemonic.upper (isMnemonic : IsMnemonic chars) :
    IsMnemonic (Text.upperChars chars) ∧
      Text.upperChars (Text.upperChars chars) = Text.upperChars chars := by
  rw [upperChars_of_continues isMnemonic.continues]
  have upper : IsMnemonic (chars.map Char.toUpper) := by
    obtain ⟨first, rest, rfl, starts, continues⟩ := isMnemonic
    have startsToo := continuesMnemonic_of_startsMnemonic starts
    refine ⟨first.toUpper, rest.map Char.toUpper, rfl, ?_, ?_⟩
    · exact (upper_of_continuesMnemonic startsToo).2.2.2 starts
    · intro char member
      obtain ⟨own, memberToo, rfl⟩ := List.mem_map.mp member
      exact (upper_of_continuesMnemonic (continues own memberToo)).2.1
  refine ⟨upper, ?_⟩
  rw [upperChars_of_continues upper.continues, List.map_map]
  apply List.map_congr_left
  exact fun char member => (upper_of_continuesMnemonic (isMnemonic.continues char member)).2.2.1

end Mnemonics

/-! ### Operands -/

section Operands

variable {depth : Nat} {chars : List Char}

theorem depthAfterChar?_of_isOperandText {char : Char} (isText : isOperandText char) :
    depthAfterChar? depth char = some depth := by
  unfold depthAfterChar?
  rw [Option.isNone_iff_eq_none.mp isText]

theorem depthAfter?_cons (char : Char) (rest : List Char) :
    depthAfter? depth (char :: rest) =
      (depthAfterChar? depth char).bind (depthAfter? · rest) := rfl

theorem depthAfter?_append (first second : List Char) :
    depthAfter? depth (first ++ second) =
      (depthAfter? depth first).bind (depthAfter? · second) :=
  List.foldlM_append

theorem depthAfter?_of_isOperandText (isText : ∀ char ∈ chars, isOperandText char) :
    depthAfter? depth chars = some depth := by
  induction chars with
  | nil => rfl
  | cons char rest ih =>
      rw [depthAfter?_cons, depthAfterChar?_of_isOperandText (isText char List.mem_cons_self)]
      exact ih fun own member => isText own (List.mem_cons_of_mem char member)

/-- No blank is a parenthesis or a comma. -/
theorem isOperandText_of_isBlank {char : Char} (blank : Text.isBlank char) :
    isOperandText char := by
  unfold isOperandText operandPunctuation?
  split_ifs with opens closes separates
  · obtain rfl := beq_iff_eq.mp opens
    cases blank
  · obtain rfl := beq_iff_eq.mp closes
    cases blank
  · obtain rfl := beq_iff_eq.mp separates
    cases blank
  · rfl

theorem depthAfter?_trimChars (chars : List Char) :
    depthAfter? depth (Text.trimChars chars) = depthAfter? depth chars := by
  obtain ⟨front, back, split, frontBlank, backBlank⟩ := Text.exists_blanks_around chars
  have frontText : ∀ char ∈ front, isOperandText char :=
    fun char member => isOperandText_of_isBlank (frontBlank char member)
  have backText : ∀ char ∈ back, isOperandText char :=
    fun char member => isOperandText_of_isBlank (backBlank char member)
  conv_rhs => rw [split, depthAfter?_append, depthAfter?_append]
  rw [depthAfter?_of_isOperandText frontText, Option.bind_some]
  cases depthAfter? depth (Text.trimChars chars) with
  | none => rfl
  | some after => rw [Option.bind_some, depthAfter?_of_isOperandText backText]

/-- An operand whose parentheses pair up is written back when it has been trimmed. -/
theorem isOperand_trim (closes : depthAfter? 0 chars = some 0) :
    IsOperand (Text.trim (String.ofList chars)) := by
  refine ⟨Text.trim_trim _, ?_⟩
  rw [Text.trim, String.toList_ofList, String.toList_ofList, depthAfter?_trimChars]
  exact closes

end Operands

end RungText

/-- An instruction as it is read back from its own text. -/
structure Instruction.IsCanonical (content : Instruction) : Prop where
  mnemonic : RungText.IsMnemonic content.mnemonic.toList
  operands : ∀ operand ∈ content.operands, RungText.IsOperand operand
  several : content.operands ≠ [""]
  made : Instruction.make content.mnemonic content.operands = content

namespace Instruction

theorem map_trim_of_isOperand {operands : List String}
    (areOperands : ∀ operand ∈ operands, RungText.IsOperand operand) :
    operands.map Text.trim = operands := by
  conv_rhs => rw [← List.map_id operands]
  apply List.map_congr_left
  exact fun operand member => (areOperands operand member).trimmed

section Making

variable {chars : List Char} {operands : List String}

theorem make_eq (isMnemonic : RungText.IsMnemonic chars)
    (areOperands : ∀ operand ∈ operands, RungText.IsOperand operand) :
    make (String.ofList chars) operands =
      ⟨String.ofList (Text.upperChars chars), operands,
        format (String.ofList (Text.upperChars chars)) operands,
        Category.ofMnemonic (String.ofList (Text.upperChars chars))⟩ := by
  have trimmed : Text.trim (String.ofList chars) = String.ofList chars := by
    rw [Text.trim, String.toList_ofList, isMnemonic.trimChars_eq]
  unfold make Text.upper
  rw [trimmed, String.toList_ofList, map_trim_of_isOperand areOperands]

/-- What is made of a mnemonic and of operands that can be written back is canonical. -/
theorem make_isCanonical (isMnemonic : RungText.IsMnemonic chars)
    (areOperands : ∀ operand ∈ operands, RungText.IsOperand operand) (several : operands ≠ [""]) :
    (make (String.ofList chars) operands).IsCanonical := by
  obtain ⟨upper, upperAgain⟩ := isMnemonic.upper
  rw [make_eq isMnemonic areOperands]
  refine ⟨?_, areOperands, several, ?_⟩
  · rw [String.toList_ofList]
    exact upper
  · rw [make_eq upper areOperands, upperAgain]

end Making

theorem IsCanonical.text_eq {content : Instruction} (canonical : content.IsCanonical) :
    content.text = format content.mnemonic content.operands := by
  have written : (make content.mnemonic content.operands).text =
      format (make content.mnemonic content.operands).mnemonic
        (make content.mnemonic content.operands).operands := rfl
  rw [canonical.made] at written
  exact written

end Instruction
end LadderDiagram
