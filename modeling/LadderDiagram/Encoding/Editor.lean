import LadderDiagram.Editor.Session
import LadderDiagram.Encoding.Layout

/-!
# Editor answers as JSON

How the answers of edits, the places on a drawing, events and the outcomes of
pointer actions appear in answers.
-/

namespace LadderDiagram

variable {α : Type} [Scalar α]

def Edit.answerJson : (edit : Edit) → edit.Answer → Json
  | .insertInstruction .., element => element.toJson
  | .replaceInstruction .., element => element.toJson
  | .deleteElement .., removed => .ofList Element.toJson removed
  | .insertBranch .., id => id.toJson
  | .insertBranchLevel .., id => id.toJson
  | .moveBranch .., id => id.toJson
  | .removeBranch .., removed => .ofList Element.toJson removed
  | .moveElement .., element => element.toJson
  | .setComment .., _ => .null
  | .addRung .., number => .ofNat number
  | .removeRung .., _ => .null

def Extent.toJson (extent : Extent α) : Json :=
  .obj [("rungCount", .ofNat extent.rungCount), ("width", scalarJson extent.width),
    ("height", scalarJson extent.height)]

def InsertionTarget.toJson (target : InsertionTarget) : Json :=
  .ofFields [("rungNumber", some target.rungNumber.toJson),
    ("branchLevel", some target.branchLevel.toJson),
    ("branchId", target.branchId.map Address.toJson),
    ("position", some target.position.toJson)]

def locationJson : Option RailHit → Json
  | none => .obj [("kind", .str "miss"),
      ("reason", .str ErrorCode.noRungAtCoordinate.name)]
  | some hit =>
      .ofFields [("kind", some (.str "hit")),
        ("rungNumber", some hit.rungNumber.toJson),
        ("branchLevel", some hit.branchLevel.toJson),
        ("branchId", hit.branchId.map Address.toJson)]

def Selection.toJson (selection : Selection) : Json :=
  .obj [("rungNumber", selection.rungNumber.toJson), ("position", selection.position.toJson)]

def placedJson (placed : Address × Element) : Json :=
  .obj [("rungNumber", placed.1.toJson), ("element", placed.2.toJson)]

namespace SessionOutcome

def toJson : SessionOutcome → Json
  | .inserted rungNumber position =>
      .obj [("kind", .str "inserted"), ("rungNumber", rungNumber.toJson),
        ("position", position.toJson)]
  | .anchored anchor => .obj [("kind", .str "anchored"), ("anchor", anchor.toJson)]
  | .connected rungNumber id =>
      .obj [("kind", .str "connected"), ("rungNumber", rungNumber.toJson),
        ("branchId", id.toJson)]
  | .selected selection =>
      .ofFields [("kind", some (.str "selected")),
        ("selection", selection.map Selection.toJson)]
  | .moved rungNumber position =>
      .obj [("kind", .str "moved"), ("rungNumber", rungNumber.toJson),
        ("position", position.toJson)]
  | .ignored reason => .obj [("kind", .str "ignored"), ("reason", .str reason)]

end SessionOutcome

def LogEvent.toJson (event : LogEvent) : Json :=
  .ofFields [("level", some (.str event.level.name)), ("scope", some (.str event.scope)),
    ("message", some (.str event.message)), ("details", event.details)]

def Event.logged? : Event α → Option Json
  | .log event => some event.toJson
  | .note event => some event
  | .layout _ => none

def LayoutEvent.toJson (event : LayoutEvent α) : Json :=
  .obj [("rungNumbers", .ofList .ofNat event.rungNumbers), ("extent", event.extent.toJson)]

end LadderDiagram
