import LadderDiagram.Command.Schema
import LadderDiagram.Encoding.Command

/-!
# Tools and resources

To a client that works with tools, each operation is a tool with a name of its
own, and the routine and its layout are resources that it can read.
-/

namespace LadderDiagram

namespace Operation

def all : List Operation :=
  [.load, .layout, .insertInstruction, .replaceInstruction, .insertBranch, .insertBranchLevel,
    .moveBranch, .removeBranch, .removeElement, .setComment, .addRung, .removeRung, .locate,
    .findInsertion]

def toolName : Operation → String
  | .load => "ladder_routine_load"
  | .layout => "ladder_layout_get"
  | .insertInstruction => "ladder_insert_instruction"
  | .replaceInstruction => "ladder_replace_instruction"
  | .insertBranch => "ladder_insert_branch"
  | .insertBranchLevel => "ladder_insert_branch_level"
  | .moveBranch => "ladder_move_branch"
  | .removeBranch => "ladder_remove_branch"
  | .removeElement => "ladder_remove_element"
  | .setComment => "ladder_set_comment"
  | .addRung => "ladder_rung_add"
  | .removeRung => "ladder_rung_remove"
  | .locate => "ladder_locate"
  | .findInsertion => "ladder_find_insertion_position"

def ofToolName? (name : String) : Option Operation := all.find? (·.toolName == name)

end Operation

/-- What a client can read by its address. -/
inductive Resource
  | routine
  | layout
  deriving DecidableEq, Repr

namespace Resource

def all : List Resource := [.routine, .layout]

def uri : Resource → String
  | .routine => "resource://ladder-editor/routine"
  | .layout => "resource://ladder-editor/layout"

def ofUri? (uri : String) : Option Resource := all.find? (·.uri == uri)

def mimeType : String := "application/json"

def command {α : Type} : Resource → Command α
  | .routine => .routine
  | .layout => .layout none

end Resource

inductive ToolError
  /-- The arguments are not those of the tool. -/
  | arguments (refusal : Refusal)
  /-- The request cannot be met, and the client is told why. -/
  | request (message : String)
  /-- A document could not be read although it is well formed. -/
  | reading (fault : Xml.TreeFault)

def ToolError.ofCommand : CommandError → ToolError
  | .document (.unreadable fault) => .reading fault
  | error => .request error.message

/-- The use of a tool with the drawing after it and its events. -/
structure ToolReply where
  result : Except ToolError Json
  drawing : Drawing Float
  events : List (Event Float)

def Operation.call (operation : Operation) (arguments? : Option Json) (drawing : Drawing Float) :
    ToolReply :=
  match operation.read arguments? with
  | .error refusal => ⟨.error (.arguments refusal), drawing, []⟩
  | .ok command =>
      let outcome := command.execute drawing
      match outcome.result with
      | .ok response => ⟨.ok response.toJson, outcome.drawing, outcome.events⟩
      | .error error => ⟨.error (.ofCommand error), outcome.drawing, outcome.events⟩

/-- The content of a resource; every one of them can always be read. -/
def Resource.read (resource : Resource) (drawing : Drawing Float) : Json :=
  match (Command.execute drawing resource.command).result with
  | .ok response => response.toJson
  | .error _ => .null

end LadderDiagram
