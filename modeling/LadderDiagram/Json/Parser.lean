import LadderDiagram.Json.Basic
import LadderDiagram.Decimal.Numeral

/-!
# Reading JSON

A reader for JSON text by its strict grammar: four kinds of white space, no
leading zeros, no control characters inside strings.  An escaped half of a
two-unit character without its partner is read as the replacement character.
-/

namespace LadderDiagram
namespace Json

/-- White space between the tokens of JSON. -/
def isSpace (char : Char) : Bool :=
  char == ' ' || char == '\t' || char == '\n' || char == '\r'

def skipSpace (chars : List Char) : List Char := chars.dropWhile isSpace

/-- The code unit that four hexadecimal digits write, with what follows. -/
def takeHexQuad : List Char → Option (Nat × List Char)
  | a :: b :: c :: d :: rest => do
      let code ← Decimal.baseValue? 16 [a, b, c, d]
      pure (code, rest)
  | _ => none

def isHighHalf (code : Nat) : Bool := 0xD800 ≤ code && code ≤ 0xDBFF

def isLowHalf (code : Nat) : Bool := 0xDC00 ≤ code && code ≤ 0xDFFF

/-- The character that a unit escape writes, joined with a second half if it has one. -/
def takeUnitEscape (chars : List Char) : Option (Char × List Char) := do
  let (code, rest) ← takeHexQuad chars
  if isHighHalf code then
    match rest with
    | '\\' :: 'u' :: tail =>
        let (low, after) ← takeHexQuad tail
        if isLowHalf low then
          pure (Char.ofNat (0x10000 + (code - 0xD800) * 0x400 + (low - 0xDC00)), after)
        else pure ('\uFFFD', rest)
    | _ => pure ('\uFFFD', rest)
  else if isLowHalf code then pure ('\uFFFD', rest)
  else pure (Char.ofNat code, rest)

def simpleEscape? (char : Char) : Option Char :=
  if char == '"' || char == '\\' || char == '/' then some char
  else if char == 'b' then some '\x08'
  else if char == 'f' then some '\x0c'
  else if char == 'n' then some '\n'
  else if char == 'r' then some '\r'
  else if char == 't' then some '\t'
  else none

/-- The rest of a string after its opening quote. -/
def takeString (fuel : Nat) (reversed : List Char) (chars : List Char) :
    Option (String × List Char) :=
  match fuel, chars with
  | 0, _ => none
  | _, [] => none
  | _ + 1, '"' :: rest => some (String.ofList reversed.reverse, rest)
  | fuel + 1, '\\' :: 'u' :: rest =>
      match takeUnitEscape rest with
      | some (char, after) => takeString fuel (char :: reversed) after
      | none => none
  | fuel + 1, '\\' :: mark :: rest =>
      match simpleEscape? mark with
      | some char => takeString fuel (char :: reversed) rest
      | none => none
  | fuel + 1, char :: rest =>
      if char.toNat < 0x20 || char == '\\' then none
      else takeString fuel (char :: reversed) rest

/-- The digits of a number's whole part: zero alone or no zero in front. -/
def takeWholePart (chars : List Char) : Option (List Char × List Char) :=
  match Decimal.takeDigits chars with
  | ([], _) => none
  | (['0'], rest) => some (['0'], rest)
  | ('0' :: _, _) => none
  | (digits, rest) => some (digits, rest)

/-- A point with the digits after it, at least one. -/
def takeFraction : List Char → Option (List Char × List Char)
  | '.' :: rest =>
      match Decimal.takeDigits rest with
      | ([], _) => none
      | (digits, after) => some (digits, after)
  | rest => some ([], rest)

/-- An exponent, in which a mark demands digits. -/
def takeExponent : List Char → Option (Int × List Char)
  | mark :: rest =>
      if mark == 'e' || mark == 'E' then
        let (negative, body) := Decimal.takeSign rest
        match Decimal.takeDigits body with
        | ([], _) => none
        | (digits, after) =>
            let value : Int := Decimal.digitsValue digits
            some (if negative then -value else value, after)
      else some (0, mark :: rest)
  | [] => some (0, [])

def takeNumber (chars : List Char) : Option (Float × List Char) := do
  let (negative, body) :=
    match chars with
    | '-' :: rest => (true, rest)
    | rest => (false, rest)
  let (whole, afterWhole) ← takeWholePart body
  let (part, afterPart) ← takeFraction afterWhole
  let (exponent, rest) ← takeExponent afterPart
  let value :=
    Decimal.nearest (Decimal.digitsValue (whole ++ part)) (exponent - part.length)
  pure (Decimal.signed negative value, rest)

mutual

/-- A value at the front of a text without space before it. -/
def takeValue (fuel : Nat) (chars : List Char) : Option (Json × List Char) :=
  match fuel with
  | 0 => none
  | fuel + 1 =>
      match chars with
      | 'n' :: 'u' :: 'l' :: 'l' :: rest => some (.null, rest)
      | 't' :: 'r' :: 'u' :: 'e' :: rest => some (.bool true, rest)
      | 'f' :: 'a' :: 'l' :: 's' :: 'e' :: rest => some (.bool false, rest)
      | '"' :: rest => (takeString rest.length.succ [] rest).map fun (text, after) =>
          (.str text, after)
      | '[' :: rest =>
          match skipSpace rest with
          | ']' :: after => some (.arr [], after)
          | body => (takeItems fuel [] body).map fun (items, after) => (.arr items, after)
      | '\x7b' :: rest =>
          match skipSpace rest with
          | '\x7d' :: after => some (.obj [], after)
          | body => (takeFields fuel [] body).map fun (fields, after) => (.obj fields, after)
      | chars => (takeNumber chars).map fun (value, after) => (.num value, after)

/-- The items of an array after its opening bracket. -/
def takeItems (fuel : Nat) (reversed : List Json) (chars : List Char) :
    Option (List Json × List Char) :=
  match fuel with
  | 0 => none
  | fuel + 1 =>
      match takeValue fuel chars with
      | none => none
      | some (item, after) =>
          match skipSpace after with
          | ',' :: rest => takeItems fuel (item :: reversed) (skipSpace rest)
          | ']' :: rest => some ((item :: reversed).reverse, rest)
          | _ => none

/-- The fields of an object after its opening brace. -/
def takeFields (fuel : Nat) (reversed : List (String × Json)) (chars : List Char) :
    Option (List (String × Json) × List Char) :=
  match fuel with
  | 0 => none
  | fuel + 1 =>
      match chars with
      | '"' :: body =>
          match takeString body.length.succ [] body with
          | none => none
          | some (key, afterKey) =>
              match skipSpace afterKey with
              | ':' :: beforeValue =>
                  match takeValue fuel (skipSpace beforeValue) with
                  | none => none
                  | some (value, after) =>
                      match skipSpace after with
                      | ',' :: rest =>
                          takeFields fuel ((key, value) :: reversed) (skipSpace rest)
                      | '\x7d' :: rest => some (((key, value) :: reversed).reverse, rest)
                      | _ => none
              | _ => none
      | _ => none

end

/-- The value that a whole text writes, if it is well formed. -/
def parse? (text : String) : Option Json :=
  let chars := text.toList
  match takeValue (2 * chars.length + 2) (skipSpace chars) with
  | some (value, rest) => if (skipSpace rest).isEmpty then some value else none
  | none => none

end Json
end LadderDiagram
