import LadderDiagram.Instruction

/-!
# Rung trees

A rung is a rail of nodes, and a node is an instruction or a branch of parallel
rails, which may be empty.
-/

namespace LadderDiagram
namespace RungText

/-- One node of a rung: an instruction or a branch of rails. -/
inductive Node
  | instruction (instruction : Instruction)
  | branch (rails : List (List Node))

mutual

def Node.text : Node → String
  | .instruction instruction => instruction.text
  | .branch rails => "[" ++ railsText rails ++ "]"

def railText : List Node → String
  | [] => ""
  | node :: rest => node.text ++ railText rest

/-- The text of a branch's rails, with commas between them. -/
def railsText : List (List Node) → String
  | [] => ""
  | [rail] => railText rail
  | rail :: rest => railText rail ++ "," ++ railsText rest

end

/-- The text of a rung: its main rail and a semicolon. -/
def text (nodes : List Node) : String := railText nodes ++ ";"

end RungText
end LadderDiagram
