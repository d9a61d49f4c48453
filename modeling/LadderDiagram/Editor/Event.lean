import LadderDiagram.Drawing.Edit
import LadderDiagram.Drawing.Locate
import LadderDiagram.Layout.Wire

/-!
# Editor events

Every edit is reported: a log event says what was tried and how it went, and
after a success a layout event says which rungs have been laid out again.
-/

namespace LadderDiagram

inductive LogLevel
  | info
  | warn
  | error
  deriving DecidableEq, Repr

namespace LogLevel

def name : LogLevel → String
  | .info => "info"
  | .warn => "warn"
  | .error => "error"

end LogLevel

structure LogEvent where
  level : LogLevel
  scope : String
  message : String
  details : Option Json

/-- Which rungs have been laid out, and the drawing's measures after that. -/
structure LayoutEvent (α : Type) where
  rungNumbers : List Nat
  extent : Extent α

/-- An event of the editor.  A note is a log event of a client, as the client wrote it. -/
inductive Event (α : Type)
  | log (event : LogEvent)
  | note (event : Json)
  | layout (event : LayoutEvent α)

namespace ElementAddress

def toJson (address : ElementAddress) : Json :=
  .obj [("rungNumber", address.rung.toJson), ("position", address.position.toJson)]

end ElementAddress

namespace Edit

def name : Edit → String
  | .insertInstruction .. => "insertInstruction"
  | .replaceInstruction .. => "replaceInstruction"
  | .deleteElement .. => "deleteElement"
  | .insertBranch .. => "insertBranch"
  | .insertBranchLevel .. => "insertBranchLevel"
  | .moveBranch .. => "moveBranch"
  | .removeBranch .. => "removeBranch"
  | .moveElement .. => "moveElement"
  | .setComment .. => "setComment"
  | .addRung .. => "addRung"
  | .removeRung .. => "removeRung"

/-- A field that is left out when there is nothing to say, as for the main rail. -/
def optionalField (key : String) (address : Option Address) : List (String × Json) :=
  match address with
  | some number => [(key, number.toJson)]
  | none => []

def arguments : Edit → List (String × Json)
  | .insertInstruction rung position rail _ =>
      [("rungNumber", rung.toJson), ("position", position.toJson)] ++ optionalField "branchId" rail
  | .replaceInstruction rung position instruction =>
      [("rungNumber", rung.toJson), ("position", position.toJson),
        ("instruction", .str instruction.text)]
  | .deleteElement rung position =>
      [("rungNumber", rung.toJson), ("position", position.toJson)]
  | .insertBranch rung first last rail =>
      [("rungNumber", rung.toJson), ("start", first.toJson), ("end", last.toJson)] ++
        optionalField "branchId" rail
  | .insertBranchLevel rung position =>
      [("rungNumber", rung.toJson), ("position", position.toJson)]
  | .moveBranch rung id target rail =>
      [("rungNumber", rung.toJson), ("branchId", id.toJson), ("position", target.toJson)] ++
        optionalField "railId" rail
  | .removeBranch rung id => [("rungNumber", rung.toJson), ("branchId", id.toJson)]
  | .moveElement source target =>
      [("from", source.toJson),
        ("to", .obj ([("rungNumber", target.rung.toJson),
          ("position", target.position.toJson)] ++ optionalField "branchId" target.rail ++
          optionalField "branchLevel" target.level))]
  | .setComment rung _ => [("rungNumber", rung.toJson)]
  | .addRung _ place => [("index", .orNull (place.map Address.toJson))]
  | .removeRung rung => [("rungNumber", rung.toJson)]

end Edit
end LadderDiagram
