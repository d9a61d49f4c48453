import LadderDiagram.Json.Basic
import LadderDiagram.Decimal.Notation
import LadderDiagram.Decimal.Numeral

/-!
# Reading JSON values as numbers

Callers may give a number in the clothes of another value: null counts as zero,
a truth value as one or zero, a text as the number that it writes, and an array
as the text of its items with commas between them.  An object is no number, and
one that claims to know its own text cannot even be asked.
-/

namespace LadderDiagram
namespace Json

/-- The name of a value's kind in messages. -/
def kindName : Json → String
  | .null => "null"
  | .bool _ => "boolean"
  | .num _ => "number"
  | .str _ => "string"
  | .arr _ => "array"
  | .obj _ => "object"

def isObject? : Json → Option Json
  | .obj fields => some (.obj fields)
  | _ => none

def isArray? : Json → Option (List Json)
  | .arr items => some items
  | _ => none

def isNumber? : Json → Option Float
  | .num value => some value
  | _ => none

mutual

/-- The text of a value inside an array that is taken for a text. -/
def itemText : Json → String
  | .null => ""
  | .bool value => if value then "true" else "false"
  | .num value => Decimal.numberText value
  | .str value => value
  | .arr items => ",".intercalate (itemTexts items)
  | .obj _ => "[object Object]"

def itemTexts : List Json → List String
  | [] => []
  | item :: rest => itemText item :: itemTexts rest

end

/-- The field by which an object claims to know its own text; no value of a field can tell it. -/
def ownText : String := "toString"

mutual

/-- Whether a value can be asked for its text. -/
def hasText : Json → Bool
  | .arr items => haveTexts items
  | .obj fields => !fields.any (·.1 == ownText)
  | _ => true

def haveTexts : List Json → Bool
  | [] => true
  | item :: rest => hasText item && haveTexts rest

end

/-- A value, or nothing, taken for a text, if it can be asked for one. -/
def asText? : Option Json → Option String
  | none => some "undefined"
  | some .null => some "null"
  | some value => if hasText value then some (itemText value) else none

/-- A value, or nothing, taken for a number. -/
def asNumber : Option Json → Float
  | none => Decimal.undefinedNumber
  | some .null => 0
  | some (.bool value) => if value then 1 else 0
  | some (.num value) => value
  | some (.str value) => Decimal.readNumber value
  | some (.arr items) => Decimal.readNumber (itemText (.arr items))
  | some (.obj _) => Decimal.undefinedNumber

end Json
end LadderDiagram
