import LadderDiagram.Http.Name.Label
import LadderDiagram.Http.Percent

/-!
# Authorities

A target may say for which host it is meant, and for which socket of it.  A host
is a name, four bytes written as one to four numbers, or eight groups of digits
in brackets; a name consists of labels between points, and may hold characters
outside ASCII.  Nobody asks which host is named, but where none can be meant, or
where a caller shows a pass, there is no target.
-/

namespace LadderDiagram
namespace Http

def digitsValue? (base : Nat) (digits : List Char) : Option Nat :=
  digits.foldlM
    (fun value char =>
      ((hexValue? char).filter (· < base)).map fun digit => base * value + digit)
    0

/-- The number that a part of a host writes: in base sixteen, eight or ten. -/
def partValue? : List Char → Option Nat
  | [] => none
  | '0' :: 'x' :: digits => digitsValue? 16 digits
  | '0' :: 'X' :: digits => digitsValue? 16 digits
  | '0' :: digits => digitsValue? 8 digits
  | digits => digitsValue? 10 digits

/-- The parts of a host between its points; a point at its end parts nothing. -/
def hostParts (name : List Char) : List (List Char) :=
  let parts := Text.splitOnChar '.' name
  if parts.getLast? == some [] then parts.dropLast else parts

/-- Whether a host is meant as four bytes, because its last part is a number. -/
def isNumeric (parts : List (List Char)) : Bool :=
  match parts.getLast? with
  | some last => (!last.isEmpty && last.all Char.isDigit) || (partValue? last).isSome
  | none => false

/-- Whether parts write four bytes: one each, and the last one all that are left. -/
def areFourBytes (parts : List (List Char)) : Bool :=
  match parts.mapM partValue? with
  | some values =>
      values.length ≤ 4 && values.dropLast.all (· < 256) &&
        values.getLast?.all (· < Nat.pow 256 (5 - values.length))
  | none => false

def isHostChar (char : Char) : Bool :=
  '!' ≤ char && char != '\x7F' && "#%/:<>?@[\\]^|".toList.all (· != char)

def isHostName (written : List Char) : Bool :=
  match foldName? (percentDecode written) with
  | none => false
  | some name =>
      let parts := hostParts name
      !name.isEmpty && name.all isHostChar && (Text.splitOnChar '.' name).all isLabel &&
        (!isNumeric parts || areFourBytes parts)

/-- Whether a text is a group of one to four digits in base sixteen. -/
def isGroup (chars : List Char) : Bool :=
  !chars.isEmpty && chars.length ≤ 4 && (digitsValue? 16 chars).isSome

/-- Whether a text is a byte in base ten, without zeros in front. -/
def isPlainByte (chars : List Char) : Bool :=
  (chars.head? != some '0' || chars.length == 1) && !chars.isEmpty &&
    (digitsValue? 10 chars).any (· < 256)

/-- The number of groups that a text writes; four bytes at its end stand for two. -/
def groupCount? (endsBytes : Bool) (chars : List Char) : Option Nat :=
  let parts := if chars.isEmpty then [] else Text.splitOnChar ':' chars
  let bytes := Text.splitOnChar '.' (parts.getLast?.getD [])
  if parts.all isGroup then some parts.length
  else if endsBytes && parts.dropLast.all isGroup && bytes.length == 4 && bytes.all isPlainByte then
    some (parts.length + 1)
  else none

/-- Whether a text in brackets names a host; two colons leave out groups of zeros. -/
def areGroups (chars : List Char) : Bool :=
  match Text.splitAtMark [':', ':'] chars with
  | none => groupCount? true chars == some 8
  | some (front, back) =>
      match groupCount? false front, groupCount? true back with
      | some first, some second => first + second < 8
      | _, _ => false

def isSocket : List Char → Bool
  | [] => true
  | ':' :: digits => (digitsValue? 10 digits).any (· < 65536)
  | _ => false

def isSite : List Char → Bool
  | '[' :: rest =>
      match Text.splitAtMark [']'] rest with
      | some (groups, after) => areGroups groups && isSocket after
      | none => false
  | chars => isHostName (chars.takeWhile (· != ':')) && isSocket (chars.dropWhile (· != ':'))

/-- Whether what stands before the last sign for a pass shows none. -/
def showsNoPass (before : List (List Char)) : Bool :=
  before == [] || before == [[]] || before == [[':']]

/-- Whether a text names the host of a target and shows no pass. -/
def isAuthority (chars : List Char) : Bool :=
  let parts := Text.splitOnChar '@' chars
  showsNoPass parts.dropLast && isSite (parts.getLast?.getD [])

end Http
end LadderDiagram
