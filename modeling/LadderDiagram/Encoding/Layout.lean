import LadderDiagram.Encoding.Sequence
import LadderDiagram.Layout.ConfigSchema
import LadderDiagram.Layout.Wire

/-!
# Drawings as JSON

How laid-out rungs, branch records and wires appear in answers.
-/

namespace LadderDiagram

variable {α : Type} [Scalar α]

def scalarJson (value : α) : Json := .num (Scalar.toFloat value)

def Branch.toJson (branch : Branch α) : Json :=
  .ofFields [("id", some branch.id.toJson),
    ("rungNumber", some branch.rungNumber.toJson),
    ("parentBranchId", branch.parentId.map Address.toJson),
    ("childBranchIds", some (.ofList Address.toJson branch.childIds)),
    ("rootBranchId", some branch.rootId.toJson),
    ("startPosition", some branch.startPosition.toJson),
    ("endPosition", some branch.endPosition.toJson),
    ("branchLevel", some branch.branchLevel.toJson),
    ("startX", some (scalarJson branch.startX)),
    ("endX", some (scalarJson branch.endX)),
    ("branchY", some (scalarJson branch.branchY)),
    ("startY", some (scalarJson branch.startY)),
    ("endY", some (scalarJson branch.endY))]

def LayoutElement.toJson (placed : LayoutElement α) : Json :=
  let category :=
    match placed.element.draft with
    | .instruction content => some (Json.str content.category.name)
    | _ => none
  .ofFields [("kind", some (.str placed.kind.name)),
    ("category", category),
    ("x", some (scalarJson placed.x)),
    ("y", some (scalarJson placed.y)),
    ("width", some (scalarJson placed.width)),
    ("height", some (scalarJson placed.height)),
    ("rungNumber", some placed.rungNumber.toJson),
    ("position", some placed.position.toJson),
    ("branchLevel", some placed.element.branchLevel.toJson),
    ("branchId", placed.branchId.map Address.toJson),
    ("railId", placed.railId.map Address.toJson),
    ("element", some placed.element.toJson),
    ("selected", some (.bool placed.selected))]

namespace LayoutResult

/-- The measures of a laid-out rung, without what is drawn in it. -/
def frameFields (layout : LayoutResult α) : List (String × Json) :=
  [("rungNumber", layout.rungNumber.toJson),
    ("y", scalarJson layout.y),
    ("height", scalarJson layout.height),
    ("commentHeight", scalarJson layout.commentHeight),
    ("rowCount", scalarJson layout.rowCount),
    ("maxBranchDepth", layout.maxBranchDepth.toJson),
    ("rightEdge", scalarJson layout.rightEdge),
    ("rightRailX", scalarJson layout.rightRailX)]

def toJson (layout : LayoutResult α) : Json :=
  .obj (layout.frameFields ++
    [("elements", .ofList LayoutElement.toJson layout.elements),
      ("branches", .ofList Branch.toJson layout.branches)])

end LayoutResult

def WireSegment.toJson (wire : WireSegment α) : Json :=
  .obj [("rungNumber", wire.rungNumber.toJson), ("x1", scalarJson wire.x1),
    ("y1", scalarJson wire.y1), ("x2", scalarJson wire.x2), ("y2", scalarJson wire.y2)]

end LadderDiagram
