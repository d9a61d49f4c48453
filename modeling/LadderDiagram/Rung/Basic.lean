import LadderDiagram.Action
import LadderDiagram.RungText.Parser
import LadderDiagram.Sequence.Query
import LadderDiagram.Text.Blank

/-!
# Rungs

A rung is an annotated sequence with a comment.  Every change makes a list of
drafts and annotates it anew, so positions and rails are always those of the
sequence as it stands.  A comment of nothing but blanks is no comment.  A comment
takes as many lines as it has, where a line break at its very end opens no further
line.
-/

namespace LadderDiagram
namespace Comment

def normalize (comment : Option String) : Option String :=
  comment.filter fun text => !Text.isBlankText text

/--
The number of lines of a text, of which the current one already holds a
character or not.  A carriage return and the line feed after it are one break.
-/
def countLines (started : Bool) : List Char → Nat
  | [] => if started then 1 else 0
  | '\r' :: '\n' :: rest => 1 + countLines false rest
  | char :: rest =>
      if char == '\r' || char == '\n' then 1 + countLines false rest
      else countLines true rest

/-- The number of lines that a comment takes. -/
def lineCount : Option String → Nat
  | some text => countLines false text.toList
  | none => 0

end Comment

/-- A rung as it is written in a file or a request. -/
structure RungSource where
  text : Option String
  comment : Option String

/-- One rung of a routine. -/
structure Rung where
  elements : List Element
  /-- The greatest number of branches open at one place. -/
  depth : Address
  comment : Option String

def readNodes (text : String) : Except LadderError (List RungText.Node) :=
  match RungText.parse text with
  | .ok nodes => .ok nodes
  | .error faults => .error (.unreadableText text faults)

def readInstruction (text : String) : Except LadderError Instruction :=
  match readNodes text with
  | .error error => .error error
  | .ok [.instruction instruction] => .ok instruction
  | .ok _ => .error (.notOneInstruction text)

namespace Rung

def ofElements (elements : List Element) (comment : Option String) : Rung :=
  ⟨elements, branchDepth elements, comment⟩

def empty : Rung := ofElements [] none

/--
The drafts of a rung text.  The state is the next free handle, and the handles
of the branches are taken from there.
-/
def readDrafts (text : Option String) : Action Nat (List Draft) :=
  match text with
  | none => pure []
  | some text =>
      if text.isEmpty then pure []
      else do
        let nodes ← .settled (readNodes text)
        modifyGet (RungText.railDrafts · nodes)

def ofSource (source : RungSource) : Action Nat Rung := do
  let drafts ← readDrafts source.text
  let elements ← .settled (annotate drafts)
  pure (ofElements elements (Comment.normalize source.comment))

def text (rung : Rung) : String := sequenceText rung.elements

def length (rung : Rung) : Nat := rung.elements.length

def commentLines (rung : Rung) : Nat := Comment.lineCount rung.comment

/-- The rung with the sequence and the comment that it had before, its depth counted anew. -/
def restored (before : Rung) : Rung := ofElements before.elements before.comment

/-- The place that an address names, and the element that stands there. -/
def entryAt (rung : Rung) (position : Address) : Except LadderError (Nat × Element) :=
  match position.toNat?.bind fun place => rung.elements[place]?.map (place, ·) with
  | some entry => .ok entry
  | none => .error (.noElement position rung.length)

def elementAt (rung : Rung) (position : Address) : Except LadderError Element :=
  (rung.entryAt position).map (·.2)

/-- The place that an address names, and the instruction that stands there. -/
def instructionAt (rung : Rung) (position : Address) :
    Except LadderError (Nat × Element × Instruction) := do
  let (place, element) ← rung.entryAt position
  match element.draft with
  | .instruction instruction => pure (place, element, instruction)
  | marker => throw (.notInstruction place marker.kind)

end Rung
end LadderDiagram
