import LadderDiagram.Json.Basic
import LadderDiagram.Decimal.Notation

/-!
# JSON text

The text of a JSON value.  Numbers take their shortest notation, and a number
that is infinite or undefined is written as null.  Line separators, the byte
order mark and the controls above ASCII are escaped, so that an answer is one
line for every reader.  An indented text has each item and each field on a line
of its own, two spaces further in than what holds it.
-/

namespace LadderDiagram
namespace Json

/-- The four hexadecimal digits of a basic-plane character. -/
def hexQuad (code : Nat) : String :=
  let digits := Nat.toDigits 16 code
  String.ofList (List.replicate (4 - digits.length) '0' ++ digits)

def isEscapedByCode (char : Char) : Bool :=
  let code := char.toNat
  code < 0x20 || (0x7F ≤ code && code ≤ 0x9F) || code == 0x2028 ||
    code == 0x2029 || code == 0xFEFF

def pushChar (text : String) (char : Char) : String :=
  if char == '"' then text ++ "\\\""
  else if char == '\\' then text ++ "\\\\"
  else if isEscapedByCode char then text ++ "\\u" ++ hexQuad char.toNat
  else text.push char

def pushString (text value : String) : String :=
  (value.toList.foldl pushChar (text.push '"')).push '"'

/-- The text of a number, null for one that is not finite. -/
def numberText (value : Float) : String :=
  if value.isFinite then Decimal.numberText value else "null"

mutual

/-- A value written after the given text. -/
def pushValue (text : String) : Json → String
  | .null => text ++ "null"
  | .bool value => text ++ (if value then "true" else "false")
  | .num value => text ++ numberText value
  | .str value => pushString text value
  | .arr items => (pushItems (text.push '[') true items).push ']'
  | .obj fields => (pushFields (text ++ "\x7b") true fields) ++ "\x7d"

/-- The items of an array, with a comma before each but the first. -/
def pushItems (text : String) (first : Bool) : List Json → String
  | [] => text
  | item :: rest =>
      pushItems (pushValue (if first then text else text.push ',') item) false rest

/-- The fields of an object, with a comma before each but the first. -/
def pushFields (text : String) (first : Bool) : List (String × Json) → String
  | [] => text
  | (key, value) :: rest =>
      let opened := pushString (if first then text else text.push ',') key
      pushFields (pushValue (opened.push ':') value) false rest

end

def render (value : Json) : String := pushValue "" value

/-! ### Text over several lines -/

def newLine (depth : Nat) : String := "\n" ++ String.ofList (List.replicate (2 * depth) ' ')

mutual

def indentValue (depth : Nat) : Json → String
  | .arr (item :: rest) =>
      "[" ++ indentItems (depth + 1) (item :: rest) ++ newLine depth ++ "]"
  | .obj (field :: rest) =>
      "\x7b" ++ indentFields (depth + 1) (field :: rest) ++ newLine depth ++ "\x7d"
  | value => value.render

/-- The items of an array, each after a new line and all but the last before a comma. -/
def indentItems (depth : Nat) : List Json → String
  | [] => ""
  | [item] => newLine depth ++ indentValue depth item
  | item :: rest => newLine depth ++ indentValue depth item ++ "," ++ indentItems depth rest

/-- The fields of an object, likewise. -/
def indentFields (depth : Nat) : List (String × Json) → String
  | [] => ""
  | [(key, value)] => newLine depth ++ pushString "" key ++ ": " ++ indentValue depth value
  | (key, value) :: rest =>
      newLine depth ++ pushString "" key ++ ": " ++ indentValue depth value ++ "," ++
        indentFields depth rest

end

/-- The text of a value over several lines. -/
def renderIndented (value : Json) : String := indentValue 0 value

end Json
end LadderDiagram
