import LadderDiagram.Routine

/-!
# Sequences as JSON

How instructions, trees, sequences, rungs and saved routines appear in answers.
A field without a value is left out.
-/

namespace LadderDiagram

def Instruction.toJson (instruction : Instruction) : Json :=
  .obj [("mnemonic", .str instruction.mnemonic),
    ("operands", .ofList .str instruction.operands),
    ("text", .str instruction.text),
    ("category", .str instruction.category.name)]

namespace RungText

mutual

def Node.toJson : Node → Json
  | .instruction content =>
      .obj [("type", .str "instruction"), ("instruction", content.toJson)]
  | .branch rails => .obj [("type", .str "branch"), ("rails", .arr (railsJson rails))]

def railJson : List Node → List Json
  | [] => []
  | node :: rest => node.toJson :: railJson rest

def railsJson : List (List Node) → List Json
  | [] => []
  | rail :: rest => .arr (railJson rail) :: railsJson rest

end

def outcomeJson : Except (List Diagnostic) (List Node) → Json
  | .ok nodes => .obj [("nodes", .arr (railJson nodes)), ("diagnostics", .arr [])]
  | .error faults => .obj [("diagnostics", .ofList Diagnostic.toJson faults)]

end RungText

/-- A handle, null for the main rail. -/
def railJson (rail : Option BranchId) : Json := .orNull (rail.map Address.toJson)

def Draft.toJson : Draft → Json
  | .instruction content =>
      .obj [("kind", .str "instruction"), ("instruction", content.toJson)]
  | marker => .ofFields [("kind", some (.str marker.kind.name)),
      ("branchId", marker.markerId?.map Address.toJson)]

def Element.toJson (element : Element) : Json :=
  let content :=
    match element.draft with
    | .instruction content => some content.toJson
    | _ => none
  .ofFields [("kind", some (.str element.kind.name)),
    ("instruction", content),
    ("position", some element.position.toJson),
    ("branchLevel", some element.branchLevel.toJson),
    ("branchId", element.branchId.map Address.toJson),
    ("railId", element.railId.map Address.toJson),
    ("rootBranchId", element.rootBranchId.map Address.toJson)]

def RungSnapshot.toJson (rung : RungSnapshot) : Json :=
  .ofFields [("number", some (.ofNat rung.number)),
    ("text", some (.str rung.text)),
    ("comment", rung.comment.map .str)]

def RoutineSnapshot.toJson (routine : RoutineSnapshot) : Json :=
  .obj [("name", .str routine.name), ("rungs", .ofList RungSnapshot.toJson routine.rungs)]

def LadderError.toJson (error : LadderError) : Json :=
  .ofFields [("error", some (.str error.code.name)),
    ("message", some (.str error.message)),
    ("recoverable", some (.bool error.recoverable)),
    ("details", error.details)]

end LadderDiagram
