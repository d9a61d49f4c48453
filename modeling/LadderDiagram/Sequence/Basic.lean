import LadderDiagram.Address
import LadderDiagram.Instruction
import LadderDiagram.RungText.Node

/-!
# Element sequences

A rung is kept as one flat sequence.  Instructions stand in it as they are; a
branch is a start marker, a next marker for each further rail and an end
marker.  A draft is an element without its place; an element adds what the
markers around it say: position, nesting level, rail and outermost branch.
Elements that are made from drafts have whole numbers for their places; elements
from elsewhere may have any.
-/

namespace LadderDiagram

/--
The handle of a branch or of one of its further rails.  Handles are given in the
order of the whole numbers from zero; a sequence from elsewhere may have others.
-/
abbrev BranchId := Address

/-- The kinds of elements of a sequence. -/
inductive ElementKind
  | instruction
  | branchStart
  | branchNext
  | branchEnd
  deriving DecidableEq, Repr

namespace ElementKind

def name : ElementKind → String
  | .instruction => "instruction"
  | .branchStart => "branchStart"
  | .branchNext => "branchNext"
  | .branchEnd => "branchEnd"

def ofName? (name : String) : Option ElementKind :=
  [.instruction, .branchStart, .branchNext, .branchEnd].find? (·.name == name)

end ElementKind

/-- An element of a sequence without its place. -/
inductive Draft
  | instruction (instruction : Instruction)
  | branchStart (id : BranchId)
  | branchNext (id : BranchId)
  | branchEnd (id : BranchId)
  deriving DecidableEq, Repr

namespace Draft

def kind : Draft → ElementKind
  | .instruction _ => .instruction
  | .branchStart _ => .branchStart
  | .branchNext _ => .branchNext
  | .branchEnd _ => .branchEnd

/-- The handle that a marker carries. -/
def markerId? : Draft → Option BranchId
  | .instruction _ => none
  | .branchStart id => some id
  | .branchNext id => some id
  | .branchEnd id => some id

/-- The handle of the rail that a marker opens. -/
def openedRail? : Draft → Option BranchId
  | .branchStart id => some id
  | .branchNext id => some id
  | _ => none

/-- The text of an element within rung text. -/
def text : Draft → String
  | .instruction content => content.text
  | .branchStart _ => "["
  | .branchNext _ => ","
  | .branchEnd _ => "]"

end Draft

/-- An element of a sequence with its place in it. -/
structure Element where
  draft : Draft
  position : Address
  /-- The number of branches open around the element. -/
  branchLevel : Address
  /-- The rail on which the element stands; none is the main rail. -/
  railId : Option BranchId
  /-- The outermost branch around the element or made by it. -/
  rootBranchId : Option BranchId
  /-- The rail that is named as the one that holds an instruction. -/
  holderId : Option BranchId
  deriving DecidableEq, Repr

namespace Element

def kind (element : Element) : ElementKind := element.draft.kind

/-- The handle of a marker, and for an instruction the rail that holds it. -/
def branchId (element : Element) : Option BranchId :=
  match element.draft with
  | .instruction _ => element.holderId
  | marker => marker.markerId?

def openedRail? (element : Element) : Option BranchId := element.draft.openedRail?

end Element

/-- The sequence without its annotation. -/
def drafts (elements : List Element) : List Draft := elements.map Element.draft

def sequenceText (elements : List Element) : String :=
  String.join (elements.map fun element => element.draft.text) ++ ";"

/-! ### Trees as sequences -/

namespace RungText

mutual

/--
The sequence of a node, with handles counted from `next`: one for a branch and
its first rail, one for each further rail, in reading order.  The second
component is the next free handle.
-/
def Node.toDrafts (next : Nat) : Node → List Draft × Nat
  | .instruction content => ([.instruction content], next)
  | .branch rails =>
      let (inner, after) := firstRailDrafts (next + 1) rails
      (.branchStart (.ofNat next) :: inner ++ [.branchEnd (.ofNat next)], after)

def railDrafts (next : Nat) : List Node → List Draft × Nat
  | [] => ([], next)
  | node :: rest =>
      let (first, between) := node.toDrafts next
      let (others, after) := railDrafts between rest
      (first ++ others, after)

/-- The sequence of a branch's rails, of which the first has no marker of its own. -/
def firstRailDrafts (next : Nat) : List (List Node) → List Draft × Nat
  | [] => ([], next)
  | rail :: rest =>
      let (first, between) := railDrafts next rail
      let (others, after) := furtherRailDrafts between rest
      (first ++ others, after)

/-- The sequence of further rails, each behind its marker. -/
def furtherRailDrafts (next : Nat) : List (List Node) → List Draft × Nat
  | [] => ([], next)
  | rail :: rest =>
      let (first, between) := railDrafts (next + 1) rail
      let (others, after) := furtherRailDrafts between rest
      (.branchNext (.ofNat next) :: first ++ others, after)

end

end RungText
end LadderDiagram
