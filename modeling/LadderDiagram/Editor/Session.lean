import LadderDiagram.Editor.Basic

/-!
# Pointer sessions

A session turns pointer actions into edits.  Its mode says what a click does.
It may hold the first end of a branch to be drawn, a selected instruction and a
copied one.  A selection names a position, and any edit may shift positions, so
it lasts only until the next layout of the drawing.
-/

namespace LadderDiagram

inductive ToolMode
  | view
  | insertContact
  | insertCoil
  | insertBlock
  | insertBranch
  deriving DecidableEq, Repr

namespace ToolMode

def name : ToolMode → String
  | .view => "view"
  | .insertContact => "insertContact"
  | .insertCoil => "insertCoil"
  | .insertBlock => "insertBlock"
  | .insertBranch => "insertBranch"

def ofName? (name : String) : Option ToolMode :=
  [.view, .insertContact, .insertCoil, .insertBlock, .insertBranch].find? (·.name == name)

/-- The category of instruction that a click inserts. -/
def category? : ToolMode → Option Category
  | .insertContact => some .contact
  | .insertCoil => some .coil
  | .insertBlock => some .block
  | _ => none

end ToolMode

inductive EditorMode
  | tool (mode : ToolMode)
  /-- The first end of a branch is set, the second one is awaited. -/
  | connectBranch
  /-- The selected instruction is being dragged. -/
  | drag
  /-- A mode of a client's own, in which a click selects. -/
  | custom (name : String)
  deriving DecidableEq, Repr

namespace EditorMode

def name : EditorMode → String
  | .tool mode => mode.name
  | .connectBranch => "connectBranch"
  | .drag => "drag"
  | .custom name => name

/-- The mode with a name; a name that no other mode has is one of a client's own. -/
def ofName (name : String) : EditorMode :=
  match ToolMode.ofName? name with
  | some mode => .tool mode
  | none => ([.connectBranch, .drag].find? (·.name == name)).getD (.custom name)

end EditorMode

structure Selection where
  rungNumber : Address
  position : Address
  deriving DecidableEq, Repr

def Selection.address (selection : Selection) : ElementAddress :=
  ⟨selection.rungNumber, selection.position⟩

/-- The state of a pointer session. -/
structure Session where
  mode : EditorMode
  anchor : Option InsertionTarget
  selection : Option Selection
  clipboard : Option Instruction
  /-- The instruction that a click inserts, for each category. -/
  instructions : Category → Instruction
  /-- Whether the session still hears about layouts. -/
  listening : Bool

/-- What a pointer action has led to. -/
inductive SessionOutcome
  | inserted (rungNumber position : Address)
  | anchored (anchor : InsertionTarget)
  | connected (rungNumber : Address) (id : BranchId)
  | selected (selection : Option Selection)
  | moved (rungNumber position : Address)
  | ignored (reason : String)

namespace Session

def start (instructions : Category → Instruction) : Session :=
  ⟨.tool .view, none, none, none, instructions, true⟩

def hearEvent {α : Type} (session : Session) : Event α → Session
  | .log _ => session
  | .note _ => session
  | .layout _ =>
      if session.listening then
        { session with
          selection := none
          mode := if session.mode = .drag then .tool .view else session.mode }
      else session

def hear {α : Type} (session : Session) (events : List (Event α)) : Session :=
  events.foldl hearEvent session

/-- Chooses a mode; the anchor and the selection are dropped. -/
def setMode (session : Session) (mode : EditorMode) : Session :=
  { session with anchor := none, selection := none, mode := mode }

/-- Goes back to viewing; the anchor is dropped. -/
def cancel (session : Session) : Session :=
  { session with anchor := none, mode := .tool .view }

/-- Starts to drag the selected instruction, if there is one and nothing else is going on. -/
def beginDrag (session : Session) : Bool × Session :=
  if session.mode = .tool .view && session.selection.isSome then
    (true, { session with mode := .drag })
  else (false, session)

/-- Stops hearing about layouts. -/
def dispose (session : Session) : Session := { session with listening := false }

end Session

/-- A drawing with the session that works on it. -/
structure Workspace (α : Type) where
  drawing : Drawing α
  session : Session

structure Turn (α β : Type) where
  outcome : Except LadderError β
  workspace : Workspace α
  events : List (Event α)

namespace Workspace

variable {α β γ : Type} [Scalar α]

def empty (config : LayoutConfig α) (instructions : Category → Instruction) : Workspace α :=
  ⟨.blank config .empty, .start instructions⟩

/-- Takes over an action of the editor; the session hears its events. -/
def take (workspace : Workspace α) (reply : Reply α β) : Turn α β :=
  ⟨reply.outcome, ⟨reply.drawing, workspace.session.hear reply.events⟩, reply.events⟩

def takeAs (workspace : Workspace α) (reply : Reply α β) (answer : β → γ) : Turn α γ :=
  let turn := workspace.take reply
  ⟨turn.outcome.map answer, turn.workspace, turn.events⟩

def quiet (workspace : Workspace α) (outcome : Except LadderError β) : Turn α β :=
  ⟨outcome, workspace, []⟩

def withSession (workspace : Workspace α) (session : Session) : Workspace α :=
  { workspace with session := session }

/-- The report of an action that was not possible where the pointer was. -/
def ignoredEvent (reason : String) : LogEvent :=
  ⟨.info, "session", "Ignored pointer action: " ++ reason, none⟩

/-- A recoverable error is no failure of a pointer action: the action is ignored. -/
def ignoring (turn : Turn α SessionOutcome) : Turn α SessionOutcome :=
  match turn.outcome with
  | .ok _ => turn
  | .error error =>
      if error.recoverable then
        let events : List (Event α) := [.log (ignoredEvent error.message)]
        ⟨.ok (.ignored error.message),
          turn.workspace.withSession (turn.workspace.session.hear events),
          turn.events ++ events⟩
      else turn

def insertHere (workspace : Workspace α) (x y : α) (instruction : Instruction) :
    Turn α SessionOutcome :=
  ignoring (workspace.takeAs (Editor.insertAtPoint workspace.drawing x y instruction)
    fun (rungNumber, element) => .inserted rungNumber element.position)

/-- Sets the first end of a branch. -/
def captureAnchor (workspace : Workspace α) (x y : α) : Turn α SessionOutcome :=
  ignoring (match workspace.drawing.resolveInsertion x y with
    | .ok anchor =>
        (workspace.withSession
          { workspace.session with anchor := some anchor, mode := .connectBranch }).quiet
            (.ok (.anchored anchor))
    | .error error => workspace.quiet (.error error))

/-- Sets the second end of a branch and inserts it; the session is viewing after that. -/
def connect (workspace : Workspace α) (x y : α) : Turn α SessionOutcome :=
  let viewing := workspace.withSession workspace.session.cancel
  match workspace.session.anchor with
  | none => viewing.quiet (.ok (.ignored "No branch anchor."))
  | some anchor =>
      ignoring (match viewing.drawing.resolveInsertion x y with
        | .error error => viewing.quiet (.error error)
        | .ok target =>
            if target.rungNumber ≠ anchor.rungNumber || target.branchId ≠ anchor.branchId then
              viewing.quiet
                (.ok (.ignored "Branch ends must sit on the same rail of the same rung."))
            else
              viewing.takeAs (Editor.perform viewing.drawing
                (.insertBranch anchor.rungNumber (anchor.position.earlier target.position)
                  (anchor.position.later target.position) anchor.branchId))
                fun id => .connected anchor.rungNumber id)

/-- Drops the dragged instruction; the session is viewing after that. -/
def release (workspace : Workspace α) (x y : α) : Turn α SessionOutcome :=
  match workspace.session.mode, workspace.session.selection with
  | .drag, some source =>
      let viewing := workspace.withSession
        { workspace.session with mode := .tool .view, selection := none }
      ignoring (match viewing.drawing.resolveInsertion x y with
        | .error error => viewing.quiet (.error error)
        | .ok target =>
            viewing.takeAs (Editor.dropOn viewing.drawing source.address target)
              fun element => .moved target.rungNumber element.position)
  | _, _ => workspace.quiet (.ok (.ignored "No drag in progress."))

/-- Selects the instruction under the pointer, or nothing. -/
def select (workspace : Workspace α) (x y : α) : Turn α SessionOutcome :=
  let selection :=
    (workspace.drawing.elementAt x y).bind fun placed =>
      if placed.kind = .instruction then some ⟨placed.rungNumber, placed.position⟩ else none
  (workspace.withSession { workspace.session with selection := selection }).quiet
    (.ok (.selected selection))

/-- A click, which does what the mode of the session says. -/
def click (workspace : Workspace α) (x y : α) : Turn α SessionOutcome :=
  match workspace.session.mode with
  | .connectBranch => workspace.connect x y
  | .drag => workspace.release x y
  | .custom _ => workspace.select x y
  | .tool .insertBranch => workspace.captureAnchor x y
  | .tool mode =>
      match mode.category? with
      | some category =>
          let viewing := workspace.withSession { workspace.session with mode := .tool .view }
          viewing.insertHere x y (workspace.session.instructions category)
      | none => workspace.select x y

/-- Where a click would insert something; nowhere while viewing or off the rungs. -/
def hover (workspace : Workspace α) (x y : α) : Except LadderError (Option InsertionTarget) :=
  if workspace.session.mode = .tool .view then .ok none
  else
    match workspace.drawing.resolveInsertion x y with
    | .ok target => .ok (some target)
    | .error error => if error.recoverable then .ok none else .error error

/-- Copies the selected instruction; the answer says whether there was one. -/
def copySelection (workspace : Workspace α) : Turn α Bool :=
  match workspace.session.selection with
  | none => workspace.quiet (.ok false)
  | some selection =>
      let address := selection.address
      match (do
          let (_, rung) ← workspace.drawing.routine.rungAt address.rung
          rung.elementAt address.position) with
      | .error error => workspace.quiet (.error error)
      | .ok element =>
          match element.draft with
          | .instruction instruction =>
              (workspace.withSession
                { workspace.session with clipboard := some instruction }).quiet (.ok true)
          | _ => workspace.quiet (.ok false)

def paste (workspace : Workspace α) (x y : α) : Turn α SessionOutcome :=
  match workspace.session.clipboard with
  | none => workspace.quiet (.ok (.ignored "Clipboard is empty."))
  | some instruction => workspace.insertHere x y instruction

/-- The layout of a rung with the selected element marked. -/
def layoutAt (workspace : Workspace α) (rung : Address) :
    Except LadderError (LayoutResult α) := do
  let layout ← workspace.drawing.layoutAt rung
  match workspace.session.selection with
  | none => pure layout
  | some selection =>
      if selection.rungNumber = rung then
        pure { layout with
          elements := layout.elements.map fun placed =>
            if placed.position = selection.position then { placed with selected := true }
            else placed }
      else pure layout

end Workspace
end LadderDiagram
