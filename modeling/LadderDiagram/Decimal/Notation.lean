import LadderDiagram.Decimal.Shortest

/-!
# Notation of numbers

How a number is laid out once its digits are known.  The layout is one record
value, `plain`: positional between two exponents, scientific outside, with no
trailing point and a signed exponent of no fixed width.
-/

namespace LadderDiagram
namespace Decimal

/-- The layout decisions of a number format. -/
structure Notation where
  /-- Numbers with the point further left than this are scientific. -/
  leastPoint : Int
  /-- Numbers with the point further right than this are scientific. -/
  greatestPoint : Int
  undefinedText : String
  infinityText : String

/--
The number format of every message and answer: positional from a millionth up
to below `10^21`.
-/
def plain : Notation where
  leastPoint := -5
  greatestPoint := 21
  undefinedText := "NaN"
  infinityText := "Infinity"

def digitText (digits : List Nat) : String :=
  String.ofList (digits.map Nat.digitChar)

def zeros (count : Nat) : String :=
  String.ofList (List.replicate count '0')

def positional (decimal : Digits) : String :=
  let count := decimal.digits.length
  if decimal.point ≤ 0 then
    "0." ++ zeros (-decimal.point).toNat ++ digitText decimal.digits
  else if count ≤ decimal.point.toNat then
    digitText decimal.digits ++ zeros (decimal.point.toNat - count)
  else
    digitText (decimal.digits.take decimal.point.toNat) ++ "." ++
      digitText (decimal.digits.drop decimal.point.toNat)

def scientific (decimal : Digits) : String :=
  let exponent := decimal.point - 1
  let mantissa :=
    match decimal.digits with
    | [] => "0"
    | [digit] => digitText [digit]
    | digit :: rest => digitText [digit] ++ "." ++ digitText rest
  let sign := if exponent < 0 then "-" else "+"
  mantissa ++ "e" ++ sign ++ toString exponent.natAbs

def Notation.layOut (style : Notation) (decimal : Digits) : String :=
  if style.leastPoint ≤ decimal.point && decimal.point ≤ style.greatestPoint then
    positional decimal
  else scientific decimal

/-- The text of a double in the given notation; zero carries no sign. -/
def Notation.text (style : Notation) (value : Float) : String :=
  match Binary.ofFloat value with
  | .undefined => style.undefinedText
  | .infinite negative => (if negative then "-" else "") ++ style.infinityText
  | .finite negative mantissa exponent =>
      if mantissa == 0 then "0"
      else (if negative then "-" else "") ++ style.layOut (shortest mantissa exponent)

def wholeText (value : Int) : String :=
  match value with
  | .ofNat count => toString count
  | .negSucc count => "-" ++ toString (count + 1)

/--
The text of a double as messages show it.  Whole numbers below `2^53` need no
search for their digits.
-/
def numberText (value : Float) : String :=
  match wholeNumber? value with
  | some whole => wholeText whole
  | none => plain.text value

end Decimal
end LadderDiagram
