import LadderDiagram.Text.Line
import LadderDiagram.Text.Units

/-!
# Percent signs and queries

An address writes a byte of encoded text as a percent sign with two digits.
Characters that may not stand in an address are always written so.  Bytes that
are written next to each other are read together, and left as they are written
if they encode no text.

The part of a request's target behind its question mark names values.  A plus
sign stands for a space there.
-/

namespace LadderDiagram
namespace Http

def hexValue? (char : Char) : Option Nat :=
  let code := char.toNat
  if char.isDigit then some (code - '0'.toNat)
  else if 'a' ≤ char && char ≤ 'f' then some (code - 'a'.toNat + 10)
  else if 'A' ≤ char && char ≤ 'F' then some (code - 'A'.toNat + 10)
  else none

def escapedByte? (high low : Char) : Option UInt8 := do
  let high ← hexValue? high
  let low ← hexValue? low
  pure (UInt8.ofNat (16 * high + low))

/-- The bytes that are written next to each other in front of a text. -/
def escapedBytes : List Char → List UInt8
  | '%' :: high :: low :: rest =>
      match escapedByte? high low with
      | some byte => byte :: escapedBytes rest
      | none => []
  | _ => []

/-- The number of characters that write one byte. -/
def escapeLength : Nat := 3

/-- The text that bytes encode, or else the characters that write them. -/
def decodeBytes (bytes : List UInt8) (written : List Char) : List Char :=
  match String.fromUTF8? ⟨bytes.toArray⟩ with
  | some text => text.toList
  | none => written

def percentDecode : List Char → List Char
  | [] => []
  | char :: rest =>
      match escapedBytes (char :: rest) with
      | [] => char :: percentDecode rest
      | byte :: bytes =>
          let length := escapeLength * bytes.length + 2
          decodeBytes (byte :: bytes) (char :: rest.take length) ++
            percentDecode (rest.drop length)
termination_by chars => chars.length
decreasing_by
  · simp
  · simp only [List.length_drop, List.length_cons]
    omega

/-- A byte written with a percent sign and two capital digits. -/
def escapeByte (byte : UInt8) : List Char :=
  ['%', (Nat.digitChar (byte.toNat / 16)).toUpper, (Nat.digitChar (byte.toNat % 16)).toUpper]

def isPlain (char : Char) : Bool :=
  '!' ≤ char && char ≤ '~' && ['"', '\'', '<', '>'].all (· != char)

/-- A text with the bytes of all characters that are not plain written. -/
def percentEncode (chars : List Char) : List Char :=
  chars.flatMap fun char =>
    if isPlain char then [char] else (String.utf8EncodeChar char).flatMap escapeByte

/-! ### Queries -/

/-- A name or a value as it is meant. -/
def decodeQuery (written : List Char) : String :=
  String.ofList (percentDecode (written.map fun char => if char == '+' then ' ' else char))

/-- A piece of a query as its name and its value, which may be missing. -/
def splitField (piece : List Char) : List Char × List Char :=
  (Text.splitAtMark ['='] piece).getD (piece, [])

/-- The value of a name in a query; the first of several counts. -/
def queryValue? (query : List Char) (name : String) : Option String :=
  (((Text.splitOnChar '&' query).map splitField).find? fun field => decodeQuery field.1 == name).map
    fun field => decodeQuery field.2

end Http
end LadderDiagram
