import LadderDiagram.Editor.Basic
import LadderDiagram.L5x.Export
import LadderDiagram.L5x.Routine

/-!
# Commands

What a host of the editor can ask for, as one type: reading and writing whole
routines, the edits of a routine, and questions about its drawing.  A command
either has its response or fails, and every edit is reported as the editor
reports it.
-/

namespace LadderDiagram

/-- Where an instruction goes: to a gap of a rung or to a point of the drawing. -/
structure Placement (α : Type) where
  rung : Option Address
  position : Option Address
  rail : Option BranchId
  x : Option α
  y : Option α

/-- A request to the editor. -/
inductive Command (α : Type)
  | load (source : RoutineSource)
  | loadDocument (document : String) (routine : Option String)
  | exportDocument (program : Option String)
  | routine
  /-- The layout of one rung, or of all of them. -/
  | layout (rung : Option Address)
  | extent
  | insertInstruction (instruction : String) (placement : Placement α)
  | replaceInstruction (instruction : String) (rung position : Address)
  | insertBranch (rung first last : Address) (rail : Option BranchId)
  | insertBranchLevel (rung position : Address)
  | moveBranch (rung : Address) (id : BranchId) (position : Address) (rail : Option BranchId)
  | removeBranch (rung : Address) (id : BranchId)
  | removeElement (rung position : Address)
  | setComment (rung : Address) (comment : Option String)
  | addRung (source : RungSource) (place : Option Address)
  | removeRung (rung : Address)
  | locate (x y : α)
  | findInsertion (x : α) (rung level : Address) (rail : Option BranchId)

/-- What an edit did to its rung, besides its text. -/
inductive RungChange
  | nothing
  | placed (position : Address)
  | branched (id : BranchId)
  | removed (count : Nat)
  deriving DecidableEq, Repr

inductive Response (α : Type)
  | loaded (routine : RoutineSnapshot)
  | document (text : String)
  | routine (saved : RoutineSnapshot)
  | layouts (layouts : List (LayoutResult α)) (wires : List (WireSegment α))
      (extent : Extent α)
  | extent (extent : Extent α)
  | edited (rung : Address) (text : String) (change : RungChange)
  | commented (rung : Address) (comment : Option String) (height : α)
  | rungRemoved (rung : Address) (count : Nat)
  | located (hit : Option RailHit)
  | insertion (position : Address)

inductive CommandError
  | ladder (error : LadderError)
  | document (error : L5x.ReadError)

def CommandError.message : CommandError → String
  | .ladder error => error.message
  | .document error => error.message

/-- The response to a command with the drawing after it and its events. -/
structure Outcome (α : Type) where
  result : Except CommandError (Response α)
  drawing : Drawing α
  events : List (Event α)

namespace Command

variable {α β : Type} [Scalar α]

/-- A command that ends without an edit. -/
def ask (drawing : Drawing α) (result : Except LadderError (Response α)) : Outcome α :=
  ⟨result.mapError .ladder, drawing, []⟩

/-- A command that makes an edit; the response may look at the drawing after it. -/
def make (reply : Reply α β) (respond : Drawing α → β → Except LadderError (Response α)) :
    Outcome α :=
  ⟨(reply.outcome.bind (respond reply.drawing)).mapError .ladder, reply.drawing, reply.events⟩

def showRung (rung : Address) (change : RungChange) (drawing : Drawing α) :
    Except LadderError (Response α) :=
  (drawing.routine.rungAt rung).map fun (_, found) => .edited rung found.text change

def showComment (rung : Address) (drawing : Drawing α) : Except LadderError (Response α) := do
  let (_, found) ← drawing.routine.rungAt rung
  let layout ← drawing.layoutAt rung
  pure (.commented rung found.comment layout.height)

/-- The layouts asked for, with their wires. -/
def showLayouts (drawing : Drawing α) (layouts : List (LayoutResult α)) : Response α :=
  .layouts layouts (layouts.flatMap (·.wires drawing.config)) drawing.extent

/-- Reads a routine in place of the present one. -/
def executeLoad (drawing : Drawing α) (source : RoutineSource) : Outcome α :=
  make (Editor.load drawing source) fun _ saved => .ok (.loaded saved)

/-- Places an instruction; a point counts before a gap. -/
def executePlacement (drawing : Drawing α) (instruction : Instruction)
    (placement : Placement α) : Outcome α :=
  match placement.x, placement.y, placement.rung, placement.position with
  | some x, some y, _, _ =>
      make (Editor.insertAtPoint drawing x y instruction) fun after (rung, element) =>
        showRung rung (.placed element.position) after
  | _, _, some rung, some position =>
      make (Editor.perform drawing (.insertInstruction rung position placement.rail instruction))
        fun after element => showRung rung (.placed element.position) after
  | _, _, _, _ => ask drawing (.error .noTarget)

def execute (drawing : Drawing α) : Command α → Outcome α
  | .load source => executeLoad drawing source
  | .loadDocument document name =>
      match L5x.readRoutine document name with
      | .error error => ⟨.error (.document error), drawing, []⟩
      | .ok source => executeLoad drawing source
  | .exportDocument program =>
      ask drawing (.ok (.document (L5x.writeRoutine drawing.routine.snapshot program)))
  | .routine => ask drawing (.ok (.routine drawing.routine.snapshot))
  | .layout none => ask drawing (.ok (showLayouts drawing drawing.layouts))
  | .layout (some rung) =>
      ask drawing ((drawing.layoutAt rung).map fun layout => showLayouts drawing [layout])
  | .extent => ask drawing (.ok (.extent drawing.extent))
  | .insertInstruction instruction placement =>
      match readInstruction instruction with
      | .error error => ask drawing (.error error)
      | .ok content => executePlacement drawing content placement
  | .replaceInstruction instruction rung position =>
      match readInstruction instruction with
      | .error error => ask drawing (.error error)
      | .ok content =>
          make (Editor.perform drawing (.replaceInstruction rung position content))
            fun after element => showRung rung (.placed element.position) after
  | .insertBranch rung first last rail =>
      make (Editor.perform drawing (.insertBranch rung first last rail))
        fun after id => showRung rung (.branched id) after
  | .insertBranchLevel rung position =>
      make (Editor.perform drawing (.insertBranchLevel rung position))
        fun after id => showRung rung (.branched id) after
  | .moveBranch rung id position rail =>
      make (Editor.perform drawing (.moveBranch rung id position rail))
        fun after moved => showRung rung (.branched moved) after
  | .removeBranch rung id =>
      make (Editor.perform drawing (.removeBranch rung id))
        fun after removed => showRung rung (.removed removed.length) after
  | .removeElement rung position =>
      make (Editor.perform drawing (.deleteElement rung position))
        fun after removed => showRung rung (.removed removed.length) after
  | .setComment rung comment =>
      make (Editor.perform drawing (.setComment rung comment))
        fun after _ => showComment rung after
  | .addRung source place =>
      make (Editor.perform drawing (.addRung source place))
        fun after number => showRung (.ofNat number) .nothing after
  | .removeRung rung =>
      make (Editor.perform drawing (.removeRung rung))
        fun after _ => .ok (.rungRemoved rung after.routine.size)
  | .locate x y => ask drawing (.ok (.located (drawing.locate x y)))
  | .findInsertion x rung level rail =>
      ask drawing ((drawing.findInsertionPosition x rung level rail).map .insertion)

end Command
end LadderDiagram
