import LadderDiagram.Editor.Event

/-!
# The editor

The editor makes edits on a drawing and reports each of them by events.  It has
no state of its own: an action gives its outcome, the drawing after it and the
events in the order in which they happened.
-/

namespace LadderDiagram

/-- The outcome of an action with the drawing after it and its events. -/
structure Reply (α β : Type) where
  outcome : Except LadderError β
  drawing : Drawing α
  events : List (Event α)

namespace Editor

variable {α β : Type} [Scalar α]

def layoutEvent (drawing : Drawing α) : Event α :=
  .layout ⟨drawing.relaid, drawing.extent⟩

def failureEvent (action : String) (arguments : List (String × Json))
    (error : LadderError) : LogEvent where
  level := if error.recoverable then .warn else .error
  scope := "editor"
  message := action ++ " failed: " ++ error.message
  details := some (.obj (arguments ++ [("code", .str error.code.name)]))

def successEvent (action : String) (arguments : List (String × Json))
    (relaid : List Nat) : LogEvent where
  level := .info
  scope := "editor"
  message := action ++ " re-laid out " ++ toString relaid.length ++ " rung(s)."
  details := some (.obj (arguments ++ [("rungs", .ofList .ofNat relaid)]))

def report (action : String) (arguments : List (String × Json)) :
    Except LadderError β × Drawing α → Reply α β
  | (.ok value, drawing) =>
      ⟨.ok value, drawing,
        [.log (successEvent action arguments drawing.relaid), layoutEvent drawing]⟩
  | (.error error, drawing) =>
      ⟨.error error, drawing, [.log (failureEvent action arguments error)]⟩

/-- Makes an edit whose arguments are reported as the caller wrote them. -/
def performAs (drawing : Drawing α) (edit : Edit) (arguments : List (String × Json)) :
    Reply α edit.Answer :=
  report edit.name arguments (drawing.apply edit)

def perform (drawing : Drawing α) (edit : Edit) : Reply α edit.Answer :=
  performAs drawing edit edit.arguments

/-- Moves an instruction to a gap that was found on the drawing. -/
def dropOn (drawing : Drawing α) (source : ElementAddress) (target : InsertionTarget) :
    Reply α Element :=
  perform drawing (.moveElement source
    ⟨target.rungNumber, target.position, target.branchId, some target.branchLevel⟩)

/-- Puts an instruction into a gap that was found on the drawing. -/
def insertAt (drawing : Drawing α) (target : InsertionTarget) (instruction : Instruction) :
    Except LadderError Element × Drawing α :=
  drawing.apply
    (.insertInstruction target.rungNumber target.position target.branchId instruction)

/-- Puts an instruction where a point is; the answer is its rung and its element. -/
def insertAtPoint (drawing : Drawing α) (x y : α) (instruction : Instruction) :
    Reply α (Address × Element) :=
  report "insertInstructionAtPoint"
    [("x", .num (Scalar.toFloat x)), ("y", .num (Scalar.toFloat y)),
      ("instruction", .str instruction.text)]
    (match drawing.resolveInsertion x y with
      | .ok target =>
          let (outcome, next) := insertAt drawing target instruction
          (outcome.map (target.rungNumber, ·), next)
      | .error error => (.error error, drawing))

def loadFailureEvent (error : LadderError) : LogEvent :=
  ⟨.error, "routine", "Failed to load routine: " ++ error.message, none⟩

def loadEvent (routine : Routine) : LogEvent :=
  ⟨.info, "routine", "Loaded routine " ++ routine.name ++ " with " ++
    toString routine.size ++ " rung(s).", none⟩

/-- Reads a routine in place of the present one. -/
def load (drawing : Drawing α) (source : RoutineSource) : Reply α RoutineSnapshot :=
  match Routine.ofSource source with
  | .error error => ⟨.error error, drawing, [.log (loadFailureEvent error)]⟩
  | .ok routine =>
      match Drawing.ofRoutine drawing.config routine with
      | (.error error, loaded) => ⟨.error error, loaded, []⟩
      | (.ok _, loaded) =>
          ⟨.ok routine.snapshot, loaded, [.log (loadEvent routine), layoutEvent loaded]⟩

/-- An answer that changes nothing and reports nothing. -/
def answer (drawing : Drawing α) (outcome : Except LadderError β) : Reply α β :=
  ⟨outcome, drawing, []⟩

def wires (drawing : Drawing α) (rung : Address) :
    Except LadderError (List (WireSegment α)) :=
  (drawing.layoutAt rung).map (·.wires drawing.config)

end Editor
end LadderDiagram
