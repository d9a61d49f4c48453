import LadderDiagram.RungText.Node
import LadderDiagram.RungText.Diagnostic

/-!
# Reading rung text

The tokens of a rung are read left to right by a machine whose state is the
part of the tree read so far: the open branches around the current rail, and
within an instruction the operands.  Each state says which tokens may follow,
so the first token that may not is the one fault reported for the tree; the
unexpected runs of the text are reported before it.  A rung that is read has a
parse tree by the rules of the grammar, and its nodes are those of this tree.
-/

namespace LadderDiagram
namespace RungText

/--
A branch whose closing bracket has not been read: the nodes before it on its
own rail, and its rails that are complete, both in reverse.
-/
structure OpenBranch where
  before : List Node
  rails : List (List Node)

/-- The place of the reader between the elements of a rail. -/
structure RailState where
  /-- The open branches, innermost first. -/
  openBranches : List OpenBranch
  /-- The nodes of the current rail, in reverse. -/
  nodes : List Node

/-- The place of the reader inside an instruction's parentheses. -/
structure OperandState where
  rail : RailState
  mnemonic : List Char
  /-- The operands that are complete, in reverse. -/
  operands : List String
  /-- The text of the current operand, in reverse. -/
  operand : List Char
  /-- The number of parentheses open within the current operand. -/
  depth : Nat

/-- What has been read of a rung. -/
inductive ReadState
  | onRail (rail : RailState)
  | afterMnemonic (rail : RailState) (mnemonic : List Char)
  | inOperands (state : OperandState)
  | finished (nodes : List Node)

namespace RailState

def empty : RailState := ⟨[], []⟩

def push (rail : RailState) (node : Node) : RailState :=
  { rail with nodes := node :: rail.nodes }

/-- The rail inside a branch that opens here. -/
def enter (rail : RailState) : RailState :=
  ⟨⟨rail.nodes, []⟩ :: rail.openBranches, []⟩

def step (rail : RailState) (token : Token) : Except Diagnostic ReadState :=
  match token.kind, rail.openBranches with
  | .mnemonic, _ => .ok (.afterMnemonic rail token.image)
  | .leftBracket, _ => .ok (.onRail rail.enter)
  | .comma, branch :: outer =>
      .ok (.onRail ⟨{ branch with rails := rail.nodes.reverse :: branch.rails } :: outer, []⟩)
  | .rightBracket, branch :: outer =>
      let rails := (rail.nodes.reverse :: branch.rails).reverse
      .ok (.onRail ⟨outer, .branch rails :: branch.before⟩)
  | .semicolon, [] => .ok (.finished rail.nodes.reverse)
  | _, _ :: _ => .error (.expected .rightBracket (some token))
  | _, [] => .error (.redundant token)

end RailState

namespace OperandState

/-- The operands at the closing parenthesis, the current one included. -/
def complete (state : OperandState) : List String :=
  let last := Text.trim (String.ofList state.operand.reverse)
  (last :: state.operands).reverse

/--
The instruction at its closing parenthesis.  Empty parentheses carry no
operands rather than one empty one.
-/
def instruction (state : OperandState) : Instruction :=
  let operands := state.complete
  Instruction.make (String.ofList state.mnemonic)
    (if operands == [""] then [] else operands)

def take (state : OperandState) (token : Token) : OperandState :=
  { state with operand := token.image.reverse ++ state.operand }

/-- The tokens that may follow inside an instruction's parentheses. -/
def step (state : OperandState) (token : Token) : Except Diagnostic ReadState :=
  match token.kind, state.depth with
  | .operandText, _ => .ok (.inOperands (state.take token))
  | .leftParenthesis, depth =>
      .ok (.inOperands { state.take token with depth := depth + 1 })
  | .operandSeparator, 0 =>
      .ok (.inOperands { state with operands := state.complete.reverse, operand := [] })
  | .operandSeparator, _ + 1 => .ok (.inOperands (state.take token))
  | .rightParenthesis, 0 => .ok (.onRail (state.rail.push (.instruction state.instruction)))
  | .rightParenthesis, depth + 1 => .ok (.inOperands { state.take token with depth := depth })
  | _, _ => .error (.expected .rightParenthesis (some token))

end OperandState

namespace ReadState

def start : ReadState := .onRail .empty

def step : ReadState → Token → Except Diagnostic ReadState
  | .onRail rail, token => rail.step token
  | .afterMnemonic rail mnemonic, token =>
      if token.kind = .leftParenthesis then .ok (.inOperands ⟨rail, mnemonic, [], [], 0⟩)
      else .error (.expected .leftParenthesis (some token))
  | .inOperands state, token => state.step token
  | .finished _, token => .error (.redundant token)

def finish : ReadState → Except Diagnostic (List Node)
  | .onRail ⟨[], nodes⟩ => .ok nodes.reverse
  | .onRail ⟨_ :: _, _⟩ => .error (.expected .rightBracket none)
  | .afterMnemonic _ _ => .error (.expected .leftParenthesis none)
  | .inOperands _ => .error (.expected .rightParenthesis none)
  | .finished nodes => .ok nodes

def run (state : ReadState) : List Token → Except Diagnostic ReadState
  | [] => .ok state
  | token :: rest =>
      match state.step token with
      | .ok next => run next rest
      | .error fault => .error fault

end ReadState

def readTokens (tokens : List Token) : Except Diagnostic (List Node) :=
  match ReadState.start.run tokens with
  | .ok state => state.finish
  | .error fault => .error fault

/-- The rung that a text writes, or all its faults: the unexpected runs first. -/
def parseChars (chars : List Char) : Except (List Diagnostic) (List Node) :=
  let lexemes := lexemes chars
  let unexpected := lexemes.filterMap Diagnostic.ofLexeme?
  match readTokens (lexemes.filterMap Lexeme.token?), unexpected with
  | .ok nodes, [] => .ok nodes
  | .ok _, faults => .error faults
  | .error fault, faults => .error (faults ++ [fault])

/-- The rung that a text writes, or all its faults. -/
def parse (text : String) : Except (List Diagnostic) (List Node) :=
  parseChars text.toList

/-!
### Parse trees

The grammar of rungs has a tree for each rule.  A tree keeps what its rule has met kind by kind:
the tokens of one kind apart from those of another, and the trees of inner rules apart from all
tokens.  Where kinds alternate, as within the parentheses of an operand, the order of the text is
found again by the offsets of the tokens.
-/

/-- Parentheses within an operand and all that they enclose. -/
inductive GroupTree
  | enclosing (opening closing texts separators : List Token) (groups : List GroupTree)

/-- An operand of an instruction: its texts and its groups. -/
structure OperandTree where
  texts : List Token
  groups : List GroupTree

/-- An element of a rail. -/
inductive ElementTree
  | instruction (mnemonic : Token) (operands : List OperandTree)
  | branch (rails : List (List ElementTree))

/-! #### Nodes of parse trees -/

/-- Whether a token does not begin behind another one. -/
def byOffset (first second : Token) : Bool := first.offset ≤ second.offset

mutual

/-- The tokens of a group, in the order of the text. -/
def GroupTree.tokens : GroupTree → List Token
  | .enclosing opening closing texts separators groups =>
      (opening ++ closing ++ texts ++ separators ++ groupTokens groups).mergeSort byOffset

/-- The tokens of some groups, group by group. -/
def groupTokens : List GroupTree → List Token
  | [] => []
  | group :: rest => group.tokens ++ groupTokens rest

end

/-- The text of an operand, without the blanks at either end. -/
def OperandTree.text (operand : OperandTree) : String :=
  let tokens := (operand.texts ++ groupTokens operand.groups).mergeSort byOffset
  Text.trim (String.ofList (tokens.flatMap Token.image))

/-- Empty parentheses carry no operands rather than one empty one. -/
def instructionOf (mnemonic : Token) (operands : List OperandTree) : Instruction :=
  let texts := operands.map OperandTree.text
  Instruction.make (String.ofList mnemonic.image) (if texts == [""] then [] else texts)

mutual

/-- The node that an element of the text writes. -/
def ElementTree.node : ElementTree → Node
  | .instruction mnemonic operands => .instruction (instructionOf mnemonic operands)
  | .branch rails => .branch (railNodes rails)

def elementNodes : List ElementTree → List Node
  | [] => []
  | element :: rest => element.node :: elementNodes rest

def railNodes : List (List ElementTree) → List (List Node)
  | [] => []
  | rail :: rest => elementNodes rail :: railNodes rest

end

end RungText
end LadderDiagram
