import LadderDiagram.Decimal.Notation
import LadderDiagram.Decimal.Numeral

/-!
# Documents as trees

A document is a list of nodes: elements with attributes and children, character
sections, and the values of text stretches.  Text between tags is taken for the
value that it writes: a truth value, a number, or itself.  A numeral counts as a
number only where the number shows the same digits again, so long keys and odd
spellings stay text.
-/

namespace LadderDiagram
namespace Xml

/-! ### Text as values -/

/-- The value of a stretch of text. -/
inductive Scalar
  | text (value : String)
  | number (value : Float)
  | truth (value : Bool)

def Scalar.toText : Scalar → String
  | .text value => value
  | .number value => Decimal.numberText value
  | .truth value => if value then "true" else "false"

/-- A numeral taken apart: its sign, the zeros in front, and what follows them. -/
structure Numeral where
  sign : List Char
  zeros : List Char
  body : List Char

namespace Numeral

/-- Takes the sign and the zeros off a text. -/
def split (chars : List Char) : Numeral :=
  let sign := chars.takeWhile (fun char => char == '-' || char == '+')
  let unsigned := chars.drop (min sign.length 1)
  ⟨sign.take 1, unsigned.takeWhile (· == '0'), unsigned.dropWhile (· == '0')⟩

def isNegative (numeral : Numeral) : Bool := numeral.sign == ['-']

/-- What follows digits, a point and digits behind it in front of a text. -/
def afterDigits (chars : List Char) : List Char :=
  match chars.dropWhile Char.isDigit with
  | '.' :: rest => rest.dropWhile Char.isDigit
  | rest => rest

/-- Whether a numeral is one without an exponent. -/
def isDecimal (numeral : Numeral) : Bool := (afterDigits numeral.body).isEmpty

def isExponentMark (char : Char) : Bool := char == 'e' || char == 'E'

def isScientific (numeral : Numeral) : Bool :=
  match afterDigits numeral.body with
  | mark :: rest =>
      let exponent := (Decimal.takeSign rest).2
      isExponentMark mark && !exponent.isEmpty && exponent.all Char.isDigit
  | [] => false

/-- The number of a numeral in base sixteen, which is marked by `0x`. -/
def hexadecimal? (numeral : Numeral) : Option Float :=
  match numeral.zeros, numeral.body with
  | ['0'], 'x' :: digits =>
      (Decimal.baseValue? 16 digits).map fun value =>
        Decimal.signed numeral.isNegative (Decimal.ofNat value)
  | _, _ => none

/-- A body with a point as a number would show it: no zeros at its end, one in front. -/
def shownBody (body : List Char) : List Char :=
  if body.contains '.' then
    match (body.reverse.dropWhile (· == '0')).reverse with
    | ['.'] => ['0']
    | '.' :: digits => '0' :: '.' :: digits
    | digits => if digits.getLast? == some '.' then digits.dropLast else digits
  else body

/-- Whether a number shows the digits of the numeral that it was read from. -/
def showsAgain (numeral : Numeral) (written shown : List Char) : Bool :=
  let body := shownBody numeral.body
  if shown.any isExponentMark then true
  else if written.contains '.' then
    (shown == ['0'] && body.isEmpty) || shown == body ||
      (!numeral.sign.isEmpty && shown == '-' :: body)
  else if numeral.zeros.isEmpty then shown == written || numeral.sign ++ shown == written
  else body == shown || numeral.sign ++ body == shown

def number? (written : List Char) : Option Float :=
  let numeral := split written
  match numeral.hexadecimal? with
  | some value => some value
  | none =>
      if written.any isExponentMark then
        if numeral.isScientific then
          some (Decimal.readNumber (String.ofList (numeral.sign ++ numeral.body)))
        else none
      else if !numeral.isDecimal then none
      else if numeral.sign.isEmpty && numeral.body.isEmpty then some 0
      else
        let value := Decimal.readNumber (String.ofList written)
        if numeral.showsAgain written (Decimal.numberText value).toList then some value
        else none

end Numeral

def Scalar.ofText (chars : List Char) : Scalar :=
  if chars == "true".toList then .truth true
  else if chars == "false".toList then .truth false
  else
    match Numeral.number? chars with
    | some value => .number value
    | none => .text (String.ofList chars)

/-! ### Nodes -/

/-- The name under which character sections are found. -/
def sectionKey : String := "__cdata"

/-- The name under which text is found beside children or attributes. -/
def textKey : String := "#text"

/-- Whether a name stands for something else than an element, so that no tag may open it. -/
def isReserved (name : String) : Bool := name == sectionKey || name == textKey

/-- A node of a document. -/
inductive Node
  | element (name : String) (attributes : List (String × String)) (children : List Node)
  | characters (text : String)
  | value (scalar : Scalar)

end Xml
end LadderDiagram
