import LadderDiagram.Routine
import LadderDiagram.Xml.Printer

/-!
# Writing routines as L5X documents

A routine is written as the target of a document, within the controller and the
program around it that give it its place.
-/

namespace LadderDiagram
namespace L5x

open Xml

/-- A rung as it is written: its number, its text and its comment. -/
structure WrittenRung where
  number : Address
  text : String
  comment : Option String

def sectionElement (name text : String) : Node := .element name [] [.characters text]

/-- The element of a rung, its comment before its text. -/
def WrittenRung.node (rung : WrittenRung) : Node :=
  .element "Rung" [("Number", rung.number.text), ("Type", "N")]
    ((rung.comment.map (sectionElement "Comment")).toList ++ [sectionElement "Text" rung.text])

/-- The program of a routine that was given none. -/
def defaultProgram : String := "MainProgram"

/-- The element that says it only gives another its place. -/
def contextElement (name : String) (attributes : List (String × String)) (child : Node) :
    Node :=
  .element name (("Use", "Context") :: attributes) [child]

def routineDocument (name program : String) (rungs : List WrittenRung) : Node :=
  .element "RSLogix5000Content"
    [("SchemaRevision", "1.0"), ("TargetType", "Routine"), ("TargetName", name),
      ("ContainsContext", "true")]
    [contextElement "Controller" []
      (contextElement "Programs" []
        (contextElement "Program" [("Name", program)]
          (contextElement "Routines" []
            (.element "Routine" [("Use", "Target"), ("Name", name), ("Type", "RLL")]
              [.element "RLLContent" [] (rungs.map WrittenRung.node)]))))]

/-- The document of a routine's rungs. -/
def writeRungs (name : String) (program? : Option String) (rungs : List WrittenRung) : String :=
  renderDocument (routineDocument name (program?.getD defaultProgram) rungs)

def writeRoutine (saved : RoutineSnapshot) (program? : Option String) : String :=
  writeRungs saved.name program? <|
    saved.rungs.map fun rung => ⟨.ofNat rung.number, rung.text, rung.comment⟩

end L5x
end LadderDiagram
