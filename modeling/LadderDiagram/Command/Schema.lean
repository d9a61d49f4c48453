import LadderDiagram.Command.Basic
import LadderDiagram.Schema.Basic

/-!
# Commands from JSON

A host receives the arguments of a command as JSON.  Each operation has a schema
that reads them; addresses may come as anything that can be taken for a whole
number that is not negative, coordinates as anything that can be taken for a
number.
-/

namespace LadderDiagram

/-- The operations that a host offers with arguments. -/
inductive Operation
  | load
  | layout
  | insertInstruction
  | replaceInstruction
  | insertBranch
  | insertBranchLevel
  | moveBranch
  | removeBranch
  | removeElement
  | setComment
  | addRung
  | removeRung
  | locate
  | findInsertion
  deriving DecidableEq, Repr

namespace Schema

/-- A place or a handle. -/
def address : Schema Address := fun json? =>
  (coerced true .notNegative json?).map Address.ofFloat

def coordinate : Schema Float := coerced false .none

/-- The source of a rung in a routine, which has at least a text. -/
def rungSource : Schema RungSource :=
  object fun json =>
    ((field "text" text json).map fun text comment => RungSource.mk (some text) comment).seq
      (field "comment" (optional text) json)

/-- A routine as a host sends it: by its rungs, or by a document that holds it. -/
structure SentRoutine where
  name : Option String
  rungs : Option (List RungSource)
  document : Option String
  chosen : Option String

/-- The command that reads a sent routine; a document counts before rungs. -/
def SentRoutine.command (sent : SentRoutine) : Command Float :=
  match sent.document with
  | some document => .loadDocument document sent.chosen
  | none => .load ⟨sent.name, sent.rungs.getD []⟩

def sentRoutine : Schema SentRoutine := fun json? =>
  (object (fun json =>
    ((((field "name" (optional filledText) json).map SentRoutine.mk).seq
      (field "rungs" (optional (array rungSource)) json)).seq
      (field "l5x" (optional filledText) json)).seq
      (field "routineName" (optional filledText) json)) json?).require
    (fun sent => sent.rungs.isSome || sent.document.isSome) "Provide either rungs or l5x." []

/-- Whether a placement names a gap or a point. -/
def hasTarget (placement : Placement Float) : Bool :=
  (placement.x.isSome && placement.y.isSome) ||
    (placement.rung.isSome && placement.position.isSome)

def placedInstruction : Schema (String × Placement Float) := fun json? =>
  (object (fun json =>
    ((((((field "instruction" filledText json).map fun instruction rung position rail x y =>
      (instruction, Placement.mk rung position rail x y)).seq
      (field "rungNumber" (optional address) json)).seq
      (field "position" (optional address) json)).seq
      (field "branchId" (optional address) json)).seq
      (field "x" (optional coordinate) json)).seq
      (field "y" (optional coordinate) json)) json?).require
    (fun placed => hasTarget placed.2) "Provide rungNumber and position, or x and y." []

/-- A rung with a place in it. -/
def elementLocation (command : Address → Address → Command Float) : Schema (Command Float) :=
  object fun json =>
    ((field "rungNumber" address json).map command).seq (field "position" address json)

end Schema

open Schema in
def Operation.schema : Operation → Schema (Command Float)
  | .load => fun json? => (sentRoutine json?).map SentRoutine.command
  | .layout =>
      object fun json => (field "rungNumber" (optional address) json).map .layout
  | .insertInstruction => fun json? =>
      (placedInstruction json?).map fun (instruction, placement) =>
        .insertInstruction instruction placement
  | .replaceInstruction =>
      object fun json =>
        (((field "instruction" filledText json).map Command.replaceInstruction).seq
          (field "rungNumber" address json)).seq
          (field "position" address json)
  | .insertBranch =>
      object fun json =>
        ((((field "rungNumber" address json).map Command.insertBranch).seq
          (field "start" address json)).seq
          (field "end" address json)).seq
          (field "branchId" (optional address) json)
  | .insertBranchLevel => elementLocation .insertBranchLevel
  | .moveBranch =>
      object fun json =>
        ((((field "rungNumber" address json).map Command.moveBranch).seq
          (field "branchId" address json)).seq
          (field "position" address json)).seq
          (field "targetBranchId" (optional address) json)
  | .removeBranch =>
      object fun json =>
        ((field "rungNumber" address json).map Command.removeBranch).seq
          (field "branchId" address json)
  | .removeElement => elementLocation .removeElement
  | .setComment =>
      object fun json =>
        ((field "rungNumber" address json).map Command.setComment).seq
          (field "comment" (optional text) json)
  | .addRung =>
      object fun json =>
        (((field "text" (optional text) json).map fun text comment place =>
          Command.addRung ⟨text, comment⟩ place).seq
          (field "comment" (optional text) json)).seq
          (field "index" (optional address) json)
  | .removeRung =>
      object fun json => (field "rungNumber" address json).map .removeRung
  | .locate =>
      object fun json =>
        ((field "x" coordinate json).map Command.locate).seq (field "y" coordinate json)
  | .findInsertion =>
      object fun json =>
        ((((field "x" coordinate json).map Command.findInsertion).seq
          (field "rungNumber" address json)).seq
          (field "branchLevel" address json)).seq
          (field "branchId" (optional address) json)

inductive Refusal
  | issues (issues : List Issue)
  /-- The arguments could not be checked, since one of them has no text to be read. -/
  | unchecked

def Operation.read (operation : Operation) (arguments? : Option Json) :
    Except Refusal (Command Float) :=
  match (operation.schema arguments?).result with
  | .ok command => .ok command
  | .error issues =>
      .error (if issues.any (·.cause == .noText) then .unchecked else .issues issues)

end LadderDiagram
