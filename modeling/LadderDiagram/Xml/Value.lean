import LadderDiagram.Xml.Node

/-!
# Documents as records

Programs look into a document by names.  An element with nothing but text is
that text's value; any other is a record of its children, with its attributes
under marked names.  Elements of one name share a field, and the names that
stand for lists always hold one.
-/

namespace LadderDiagram
namespace Xml

/-- What an element holds. -/
inductive Value
  | scalar (value : Scalar)
  | list (items : List Value)
  | record (fields : List (String × Value))

instance : Inhabited Value := ⟨.record []⟩

namespace Value

/-- The field of a record; of several with one name the last counts. -/
def field? (key : String) : Value → Option Value
  | .record fields => (fields.reverse.find? (·.1 == key)).map (·.2)
  | _ => none

end Value

def attributeKey (name : String) : String := "@_" ++ name

/-- The part of a value in a text that is joined from several; only a scalar has one. -/
def Value.textPart : Value → String
  | .scalar value => value.toText
  | _ => ""

/-- Joins the values of text stretches; several of them are one text. -/
def joinTexts : List Value → Option Value
  | [] => none
  | [single] => some single
  | several => some (.scalar (.text (String.join (several.map Value.textPart))))

/-- A value unless it is the empty text. -/
def filled : Option Value → Option Value
  | some (.scalar (.text "")) => none
  | value? => value?

/--
The value of a text stretch among the children.  An empty element with the name
for text is such a stretch too, with nothing in it.
-/
def Node.text? : Node → Option Value
  | .value scalar => some (.scalar scalar)
  | .element name _ _ => if name == textKey then some (.list []) else none
  | .characters _ => none

/-- The number of places that a record keeps for names that are plain whole numbers. -/
def placeBound : Nat := Nat.pow 2 32 - 1

/-- The place that a name stands for: a whole number without zeros in front. -/
def place? (name : String) : Option Nat :=
  name.toNat?.filter fun value => toString value == name && value < placeBound

/-- Names in the order of fields: places from the lowest to the highest, then the others. -/
def fieldOrder (names : List String) : List String :=
  let places := names.filterMap fun name => (place? name).map (·, name)
  (places.mergeSort fun first second => first.1 ≤ second.1).map (·.2) ++
    names.filter fun name => (place? name).isNone

/--
The fields for named values: one field a name, in the order of fields and else
as the names first appear, a list where a name repeats or always stands for one.
-/
def gather (isList : String → Bool) (entries : List (String × Value)) :
    List (String × Value) :=
  (fieldOrder (entries.map (·.1)).eraseDups).map fun name =>
    match (entries.filter (·.1 == name)).map (·.2) with
    | [single] => (name, if isList name then .list [single] else single)
    | several => (name, .list several)

/-- Fields with one more, which takes the place of a field of its name. -/
def assign (key : String) (value : Value) : List (String × Value) → List (String × Value)
  | [] => [(key, value)]
  | (own, held) :: rest =>
      if own == key then (key, value) :: rest else (own, held) :: assign key value rest

/-- What an element holds, from the fields of its children, its text and its attributes. -/
def Value.ofParts (fields : List (String × Value)) (text? : Option Value)
    (attributes : List (String × String)) : Value :=
  match fields, text?, attributes with
  | [], none, [] => .scalar (.text "")
  | [], some text, [] => text
  | fields, text?, attributes =>
      .record (attributes.foldl
        (fun fields (name, value) => assign (attributeKey name) (.scalar (.text value)) fields)
        (fields ++ (text?.map (textKey, ·)).toList))

/-- The name that marks attributes, under which no element is found. -/
def attributeMark : String := ":@"

mutual

def Node.entry (isList : String → Bool) : Node → Option (String × Value)
  | .element name attributes children =>
      if name == textKey || name == attributeMark then none
      else
        some (name, .ofParts (gather isList (nodeEntries isList children))
          (filled (joinTexts (children.filterMap Node.text?))) attributes)
  | .characters text => some (sectionKey, .scalar (.text text))
  | .value _ => none

/-- The named values of nodes. -/
def nodeEntries (isList : String → Bool) : List Node → List (String × Value)
  | [] => []
  | node :: rest => (node.entry isList).toList ++ nodeEntries isList rest

end

/-- The record of a whole document. -/
def Value.ofDocument (isList : String → Bool) (nodes : List Node) : Value :=
  .record (gather isList (nodeEntries isList nodes))

end Xml
end LadderDiagram
