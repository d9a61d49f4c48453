import LadderDiagram.Proofs.RungText.Canonical

/-!
# The grammar of rung text

What a rung text may be, written down without a scanner and without the states of a
reader.  White space may stand before and behind every element, between a mnemonic and
its parenthesis, and behind the semicolon.  Within the parentheses of an instruction
any character may stand, as long as the parentheses pair up; what stands there is cut at
the commas outside of all inner parentheses.
-/

namespace LadderDiagram
namespace RungText

/-- A run of spaces, tabs and line ends, which may be empty. -/
def AreSpaces (chars : List Char) : Prop := ∀ char ∈ chars, isSpace char

/--
The number of parentheses that are open behind a run of characters, with `depth` of them
open before it; none if it closes one that is not open.
-/
def parenthesesAfter? (depth : Nat) : List Char → Option Nat
  | [] => some depth
  | char :: rest =>
      if char = '(' then parenthesesAfter? (depth + 1) rest
      else if char = ')' then
        if depth = 0 then none else parenthesesAfter? (depth - 1) rest
      else parenthesesAfter? depth rest

/--
The parts into which the commas outside of all parentheses cut a run of characters.  It
is read behind the characters `part` of its first part, with `depth` parentheses open.
-/
def partsBehind (part : List Char) (depth : Nat) : List Char → List (List Char)
  | [] => [part]
  | char :: rest =>
      if char = ',' ∧ depth = 0 then part :: partsBehind [] 0 rest
      else if char = '(' then partsBehind (part ++ [char]) (depth + 1) rest
      else if char = ')' then partsBehind (part ++ [char]) (depth - 1) rest
      else partsBehind (part ++ [char]) depth rest

/-- The operand that a part of an argument string writes. -/
def operandOf (part : List Char) : String := Text.trim (String.ofList part)

/-- Operands as an instruction has them: a blank one that stands alone is none. -/
def unlessBlank (operands : List String) : List String :=
  if operands = [""] then [] else operands

/-- The operands that an argument string writes. -/
def operandsOf (arguments : List Char) : List String :=
  unlessBlank ((partsBehind [] 0 arguments).map operandOf)

/-- An instruction with its operands as they stand and its mnemonic in upper case. -/
def instructionWith (mnemonic : List Char) (operands : List String) : Instruction where
  mnemonic := Text.upper (String.ofList mnemonic)
  operands := operands
  text := Instruction.format (Text.upper (String.ofList mnemonic)) operands
  category := Category.ofMnemonic (Text.upper (String.ofList mnemonic))

mutual

/-- The text of an element: an instruction, or a branch with its rails between brackets. -/
inductive IsElement : List Char → Node → Prop
  | instruction {mnemonic spaces arguments : List Char} :
      IsMnemonic mnemonic → AreSpaces spaces → parenthesesAfter? 0 arguments = some 0 →
        IsElement (mnemonic ++ (spaces ++ ('(' :: (arguments ++ [')']))))
          (.instruction (instructionWith mnemonic (operandsOf arguments)))
  | branch {inner : List Char} {rails : List (List Node)} :
      AreRails inner rails → IsElement ('[' :: (inner ++ [']'])) (.branch rails)

/-- The text of a rail: spaces, and elements with spaces behind each of them. -/
inductive IsRail : List Char → List Node → Prop
  | spaces {spaces : List Char} : AreSpaces spaces → IsRail spaces []
  | element {spaces first rest : List Char} {node : Node} {nodes : List Node} :
      AreSpaces spaces → IsElement first node → IsRail rest nodes →
        IsRail (spaces ++ (first ++ rest)) (node :: nodes)

/-- The text of one or more rails with commas between them. -/
inductive AreRails : List Char → List (List Node) → Prop
  | last {chars : List Char} {rail : List Node} : IsRail chars rail → AreRails chars [rail]
  | further {first others : List Char} {rail : List Node} {rails : List (List Node)} :
      IsRail first rail → AreRails others rails →
        AreRails (first ++ ',' :: others) (rail :: rails)

end

/-- The text of a rung: its main rail, which one semicolon and spaces may follow. -/
inductive IsRung : List Char → List Node → Prop
  | unclosed {chars : List Char} {nodes : List Node} : IsRail chars nodes → IsRung chars nodes
  | closed {chars spaces : List Char} {nodes : List Node} :
      IsRail chars nodes → AreSpaces spaces → IsRung (chars ++ ';' :: spaces) nodes

/-! ### One more piece in front -/

section Prepending

variable {char : Char} {first rest : List Char} {node : Node} {nodes : List Node}
  {rails : List (List Node)}

theorem areSpaces_nil : AreSpaces [] := fun _ member => absurd member List.not_mem_nil

theorem AreSpaces.cons (space : isSpace char) (spaces : AreSpaces rest) :
    AreSpaces (char :: rest) :=
  List.forall_mem_cons.mpr ⟨space, spaces⟩

theorem isRail_nil : IsRail [] [] := .spaces areSpaces_nil

theorem IsRail.prependSpace (isRail : IsRail rest nodes) (space : isSpace char) :
    IsRail (char :: rest) nodes := by
  cases isRail with
  | spaces areSpaces => exact .spaces (areSpaces.cons space)
  | element areSpaces isElement isRest =>
      exact .element (areSpaces.cons space) isElement isRest

theorem IsRail.prependElement (isRail : IsRail rest nodes) (isElement : IsElement first node) :
    IsRail (first ++ rest) (node :: nodes) :=
  .element areSpaces_nil isElement isRail

theorem AreRails.prependSpace (areRails : AreRails rest rails) (space : isSpace char) :
    AreRails (char :: rest) rails := by
  cases areRails with
  | last isRail => exact .last (isRail.prependSpace space)
  | further isRail others => exact .further (isRail.prependSpace space) others

theorem AreRails.prependElement (areRails : AreRails rest (nodes :: rails))
    (isElement : IsElement first node) : AreRails (first ++ rest) ((node :: nodes) :: rails) := by
  cases areRails with
  | last isRail => exact .last (isRail.prependElement isElement)
  | further isRail others =>
      rw [← List.append_assoc]
      exact .further (isRail.prependElement isElement) others

theorem IsRung.prependSpace (isRung : IsRung rest nodes) (space : isSpace char) :
    IsRung (char :: rest) nodes := by
  cases isRung with
  | unclosed isRail => exact .unclosed (isRail.prependSpace space)
  | closed isRail spaces => exact .closed (isRail.prependSpace space) spaces

theorem IsRung.prependElement (isRung : IsRung rest nodes) (isElement : IsElement first node) :
    IsRung (first ++ rest) (node :: nodes) := by
  cases isRung with
  | unclosed isRail => exact .unclosed (isRail.prependElement isElement)
  | closed isRail spaces =>
      rw [← List.append_assoc]
      exact .closed (isRail.prependElement isElement) spaces

end Prepending

/-! ### Arguments -/

section Arguments

variable {part : List Char} {depth : Nat} {char : Char} {rest : List Char}

theorem not_punctuation_of_isOperandText (isText : isOperandText char) :
    char ≠ '(' ∧ char ≠ ')' ∧ char ≠ ',' := by
  refine ⟨?_, ?_, ?_⟩
  all_goals
    rintro rfl
    revert isText
    decide

theorem parenthesesAfter?_text {run : List Char} (areText : ∀ char ∈ run, isOperandText char) :
    parenthesesAfter? depth (run ++ rest) = parenthesesAfter? depth rest := by
  induction run with
  | nil => rfl
  | cons char more ih =>
      obtain ⟨isText, moreText⟩ := List.forall_mem_cons.mp areText
      obtain ⟨notOpening, notClosing, _⟩ := not_punctuation_of_isOperandText isText
      rw [List.cons_append, parenthesesAfter?, if_neg notOpening, if_neg notClosing]
      exact ih moreText

theorem partsBehind_text {run : List Char} (areText : ∀ char ∈ run, isOperandText char) :
    partsBehind part depth (run ++ rest) = partsBehind (part ++ run) depth rest := by
  induction run generalizing part with
  | nil => rw [List.nil_append, List.append_nil]
  | cons char more ih =>
      obtain ⟨isText, moreText⟩ := List.forall_mem_cons.mp areText
      obtain ⟨notOpening, notClosing, notComma⟩ := not_punctuation_of_isOperandText isText
      rw [List.cons_append, partsBehind, if_neg (fun comma => notComma comma.1),
        if_neg notOpening, if_neg notClosing, ih moreText, List.append_assoc,
        List.singleton_append]

end Arguments

end RungText
end LadderDiagram
