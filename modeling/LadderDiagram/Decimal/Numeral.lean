import LadderDiagram.Text.Blank

/-!
# Numerals

Numbers as they are written in text: the unsigned decimal with a fraction and an
exponent, and the two wider readings that requests and settings use.
-/

namespace LadderDiagram
namespace Decimal

def digitValue (char : Char) : Nat := char.toNat - '0'.toNat

def digitsValue (digits : List Char) : Nat :=
  digits.foldl (fun value char => 10 * value + digitValue char) 0

/--
The double nearest to `mantissa * 10 ^ exponent`.  Exponents far outside the
range of doubles are answered without forming the power.
-/
def nearest (mantissa : Nat) (exponent : Int) : Float :=
  let magnitude := (Nat.toDigits 10 mantissa).length + exponent
  if mantissa == 0 then 0
  else if 400 < magnitude then 1 / 0
  else if magnitude < -400 then 0
  else
    match exponent with
    | .ofNat power => Float.ofScientific mantissa false power
    | .negSucc power => Float.ofScientific mantissa true (power + 1)

def signed (negative : Bool) (value : Float) : Float :=
  if negative then -value else value

def takeSign : List Char → Bool × List Char
  | '-' :: rest => (true, rest)
  | '+' :: rest => (false, rest)
  | rest => (false, rest)

def takeDigits (chars : List Char) : List Char × List Char :=
  (chars.takeWhile Char.isDigit, chars.dropWhile Char.isDigit)

/-- The exponent at the front of a text, with what follows it. -/
def takeExponent : List Char → Int × List Char
  | mark :: rest =>
      if mark == 'e' || mark == 'E' then
        let (negative, body) := takeSign rest
        let (digits, after) := takeDigits body
        if digits.isEmpty then (0, mark :: rest)
        else
          let value : Int := digitsValue digits
          (if negative then -value else value, after)
      else (0, mark :: rest)
  | [] => (0, [])

/--
An unsigned decimal at the front of a text: digits, a point with digits after
it, at least one digit in all, and an exponent.
-/
def takeDecimal (chars : List Char) : Option (Float × List Char) :=
  let (whole, afterWhole) := takeDigits chars
  let (part, afterPart) :=
    match afterWhole with
    | '.' :: rest => takeDigits rest
    | rest => ([], rest)
  if whole.isEmpty && part.isEmpty then none
  else
    let (exponent, rest) := takeExponent afterPart
    some (nearest (digitsValue (whole ++ part)) (exponent - part.length), rest)

/-- The value of a digit in bases up to sixteen. -/
def baseDigit? (base : Nat) (char : Char) : Option Nat :=
  let code := char.toNat
  let value? :=
    if char.isDigit then some (code - '0'.toNat)
    else if 'a'.toNat ≤ code && code ≤ 'f'.toNat then some (code - 'a'.toNat + 10)
    else if 'A'.toNat ≤ code && code ≤ 'F'.toNat then some (code - 'A'.toNat + 10)
    else none
  value?.filter (· < base)

def baseValue? (base : Nat) (digits : List Char) : Option Nat :=
  if digits.isEmpty then none
  else
    digits.foldl
      (fun value? char => do
        let value ← value?
        let digit ← baseDigit? base char
        pure (base * value + digit))
      (some 0)

def undefinedNumber : Float := 0 / 0

def ofNat (value : Nat) : Float := nearest value 0

/-- A signed decimal or infinity that fills the whole text. -/
def readDecimal (chars : List Char) : Float :=
  let (negative, body) := takeSign chars
  if body == "Infinity".toList then signed negative (1 / 0)
  else
    match takeDecimal body with
    | some (value, []) => signed negative value
    | _ => undefinedNumber

/--
A whole text read as a number: blanks around it do not count, nothing at all is
zero, and a base mark gives an unsigned whole number in that base.
-/
def readNumber (text : String) : Float :=
  match Text.trimChars text.toList with
  | [] => 0
  | '0' :: mark :: digits =>
      let based (base : Nat) : Float :=
        match baseValue? base digits with
        | some value => ofNat value
        | none => undefinedNumber
      if mark == 'x' || mark == 'X' then based 16
      else if mark == 'o' || mark == 'O' then based 8
      else if mark == 'b' || mark == 'B' then based 2
      else readDecimal ('0' :: mark :: digits)
  | chars => readDecimal chars

/--
The whole number at the front of a text, after blanks and a sign; what follows
its digits is ignored.
-/
def readLeadingWhole (text : String) : Float :=
  let (negative, body) := takeSign (Text.trimStart text.toList)
  let (digits, _) := takeDigits body
  if digits.isEmpty then undefinedNumber
  else signed negative (ofNat (digitsValue digits))

end Decimal
end LadderDiagram
