import LadderDiagram.Command.Basic
import LadderDiagram.Encoding.Editor

/-!
# Responses as JSON

How the responses to commands appear in answers.
-/

namespace LadderDiagram

def RungChange.fields : RungChange → List (String × Json)
  | .nothing => []
  | .placed position => [("position", position.toJson)]
  | .branched id => [("branchId", id.toJson)]
  | .removed count => [("removed", .ofNat count)]

variable {α : Type} [Scalar α]

namespace Response

def toJson : Response α → Json
  | .loaded saved => .obj [("loaded", .bool true), ("routine", saved.toJson)]
  | .document text => .obj [("xml", .str text)]
  | .routine saved => saved.toJson
  | .layouts shown wires whole =>
      .obj [("layouts", .ofList LayoutResult.toJson shown),
        ("wires", .ofList WireSegment.toJson wires), ("extent", whole.toJson)]
  | .extent whole => whole.toJson
  | .edited rung text change =>
      .obj ([("rungNumber", rung.toJson), ("text", .str text)] ++ change.fields)
  | .commented rung comment height =>
      .ofFields [("rungNumber", some rung.toJson), ("comment", comment.map .str),
        ("height", some (scalarJson height))]
  | .rungRemoved rung count => .obj [("removed", rung.toJson), ("rungCount", .ofNat count)]
  | .located hit => locationJson hit
  | .insertion position => .obj [("position", position.toJson)]

end Response
end LadderDiagram
