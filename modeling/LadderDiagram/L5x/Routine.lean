import LadderDiagram.Routine
import LadderDiagram.Text.Blank
import LadderDiagram.Xml.Tree
import LadderDiagram.Xml.Value
import LadderDiagram.Xml.WellFormed

/-!
# Reading routines from L5X documents

An L5X document holds routines somewhere among its elements.  Those that are
written as ladder routines are read; a routine of another kind, or one whose
parts are not what they should be, is passed over.
-/

namespace LadderDiagram
namespace L5x

open Xml

/-- Why no routine can be had from a document. -/
inductive ReadError
  | malformed (report : Report)
  | noRoutine
  | unknownRoutine (name : String)
  | unreadable (fault : TreeFault)
  deriving DecidableEq, Repr

namespace ReadError

def message : ReadError → String
  | .malformed report =>
      "Invalid L5X content at line " ++ toString report.line ++ ": " ++ report.message
  | .noRoutine => "No ladder routine found in L5X content."
  | .unknownRoutine name => "Ladder routine '" ++ name ++ "' not found."
  | .unreadable fault => fault.message

/-- Whether an error says what is wrong with the document itself. -/
def isFormatError : ReadError → Bool
  | .unreadable _ => false
  | _ => true

end ReadError

/-- A ladder routine of a document. -/
structure Entry where
  name : Option String
  rungs : List RungSource

/-- The elements that stand for lists, however many there are. -/
def isList (name : String) : Bool := name == "Routine" || name == "Rung"

/-- A text, or a number taken for the text that shows it. -/
def plainText? : Value → Option String
  | .scalar (.text text) => some text
  | .scalar (.number value) =>
      if value.isNaN then none else some (Scalar.number value).toText
  | _ => none

/-- The text of an element, which may stand in one character section. -/
def elementText? (value : Value) : Option String :=
  match value with
  | .record _ => (value.field? sectionKey).bind plainText?
  | _ => plainText? value

/-- The text in a field that may be missing; a field without a text is refused. -/
def fieldText? (record : Value) (key : String) : Option (Option String) :=
  match record.field? key with
  | none => some none
  | some value => (elementText? value).map some

/-- The text of an attribute that may be missing; anything but a text is refused. -/
def attribute? (record : Value) (name : String) : Option (Option String) :=
  match record.field? (attributeKey name) with
  | none => some none
  | some (.scalar (.text text)) => some (some text)
  | some _ => none

/-- A rung: its text and its comment, both trimmed; an empty comment is none. -/
def rung? (value : Value) : Option RungSource :=
  match value with
  | .record _ => do
      let _ ← attribute? value "Number"
      let _ ← attribute? value "Type"
      let comment ← fieldText? value "Comment"
      let text ← fieldText? value "Text"
      pure ⟨some (Text.trim (text.getD "")),
        (comment.map Text.trim).filter (!·.isEmpty)⟩
  | _ => none

/-- The rungs of a routine's content, which may be missing or empty. -/
def rungs? (routine : Value) : Option (List RungSource) :=
  match routine.field? "RLLContent" with
  | none => some []
  | some (.scalar (.text "")) => some []
  | some (.record fields) =>
      match (Value.record fields).field? "Rung" with
      | none => some []
      | some (.list items) => items.mapM rung?
      | some _ => none
  | some _ => none

/-- The kind of routine that is written in ladder logic. -/
def ladderKind : String := "RLL"

def entry? (value : Value) : Option Entry :=
  match value with
  | .record _ => do
      let name ← attribute? value "Name"
      let kind ← attribute? value "Type"
      let rungs ← rungs? value
      if kind.getD ladderKind == ladderKind then pure ⟨name, rungs⟩ else none
  | _ => none

mutual

/-- The routines in a value, in the order of its fields. -/
def routineValues : Value → List Value
  | .scalar _ => []
  | .list items => routineValuesOfItems items
  | .record fields => routineValuesOfFields fields

def routineValuesOfItems : List Value → List Value
  | [] => []
  | item :: rest => routineValues item ++ routineValuesOfItems rest

/-- Routines within a routine do not count. -/
def routineValuesOfFields : List (String × Value) → List Value
  | [] => []
  | (key, .list items) :: rest =>
      (if key == "Routine" then items else routineValuesOfItems items) ++
        routineValuesOfFields rest
  | (_, .scalar _) :: rest => routineValuesOfFields rest
  | (_, .record fields) :: rest =>
      routineValuesOfFields fields ++ routineValuesOfFields rest

end

def entries (document : String) : Except ReadError (List Entry) :=
  match check? document.toList with
  | some report => .error (.malformed report)
  | none =>
      match readTree document.toList with
      | .error fault => .error (.unreadable fault)
      | .ok nodes => .ok ((routineValues (.ofDocument isList nodes)).filterMap entry?)

/-- The names of the ladder routines; one without a name is named by its number. -/
def routineNames (document : String) : Except ReadError (List String) :=
  (entries document).map fun found =>
    found.mapIdx fun index entry => entry.name.getD ("Routine" ++ toString index)

/-- The routine of a document that has a name, or its first one. -/
def readRoutine (document : String) (name? : Option String) :
    Except ReadError RoutineSource := do
  let found ← entries document
  match name? with
  | none =>
      match found.head? with
      | some entry => pure ⟨entry.name, entry.rungs⟩
      | none => .error .noRoutine
  | some name =>
      match found.find? (·.name == some name) with
      | some entry => pure ⟨entry.name, entry.rungs⟩
      | none => .error (.unknownRoutine name)

end L5x
end LadderDiagram
