import LadderDiagram.Text.Line

/-!
# Punycode

A label that holds characters outside ASCII can be written within ASCII: first its
characters within ASCII, then a hyphen, then where the others are put in and which
ones they are.  The others are told in the order of their numbers.  Each is one
number: how many steps it takes from the last character that was put in, where a
step goes to the next place in the label, and behind its end to the first place and
the next character.

Numbers are written with digits of growing weight, the lowest first; a digit under a
threshold ends its number.  The thresholds follow a bias, which is adapted to the size
of the numbers before.
-/

namespace LadderDiagram
namespace Http

/-- The value of a digit in base thirty-six; small letters come before figures. -/
def digit36? (char : Char) : Option Nat :=
  if 'a' ≤ char && char ≤ 'z' then some (char.toNat - 'a'.toNat)
  else if char.isDigit then some (char.toNat - '0'.toNat + 26)
  else none

/-- The distance between the thresholds of two digits that follow each other. -/
def thresholdStep : Nat := 36

/-- The threshold of a digit, which is at least one and at most twenty-six. -/
def threshold (height bias : Nat) : Nat := min 26 (max 1 (height - bias))

/-- No number is greater than fits into thirty-one bits. -/
def numberLimit : Nat := 0x7FFFFFFF

/--
Reads a number, given the height of its next digit over the bias, the weight of that
digit and the value of the digits before; the answer is the number and the rest.
-/
def readNumber? (bias : Nat) : Nat → Nat → Nat → List Char → Option (Nat × List Char)
  | _, _, _, [] => none
  | height, weight, value, char :: rest =>
      match digit36? char with
      | none => none
      | some digit =>
          let next := value + digit * weight
          let room := thresholdStep - threshold height bias
          if numberLimit < next then none
          else if digit < threshold height bias then some (next, rest)
          else if numberLimit < weight * room then none
          else readNumber? bias (height + thresholdStep) (weight * room) next rest

theorem length_lt_of_readNumber? {bias height weight value number : Nat}
    {chars rest : List Char}
    (read : readNumber? bias height weight value chars = some (number, rest)) :
    rest.length < chars.length := by
  induction chars generalizing height weight value with
  | nil => simp [readNumber?] at read
  | cons char chars ih =>
      simp only [readNumber?] at read
      split at read
      · simp at read
      · split at read
        · simp at read
        · split at read
          · simp_all
          · split at read
            · simp at read
            · have := ih read
              simp only [List.length_cons]
              omega

/-- A number cut down to the range of one digit, and the height of its digits over that. -/
def cutDown (number height : Nat) : Nat × Nat :=
  if 455 < number then cutDown (number / 35) (height + thresholdStep) else (number, height)
termination_by number
decreasing_by exact Nat.div_lt_self (by omega) (by omega)

/-- The bias after a number of steps in a label of some length; the first number is cut most. -/
def adaptedBias (number length : Nat) (isFirst : Bool) : Nat :=
  let damped := number / (if isFirst then 700 else 2)
  let (digit, height) := cutDown (damped + damped / length) 0
  height + 36 * digit / (digit + 38)

/--
Puts characters into a label, given the bias, the number of the last character that
was put in and the place behind it.
-/
def putIn? (bias code place : Nat) (label : List Char) : List Char → Option (List Char)
  | [] => some label
  | char :: rest =>
      match _read : readNumber? bias thresholdStep 1 place (char :: rest) with
      | none => none
      | some (reached, left) =>
          let length := label.length + 1
          let next := code + reached / length
          let here := reached % length
          if next.isValidChar then
            putIn? (adaptedBias (reached - place) length (place == 0)) next (here + 1)
              (label.take here ++ Char.ofNat next :: label.drop here) left
          else none
termination_by chars => chars.length
decreasing_by exact length_lt_of_readNumber? _read

/-- The label that is written within ASCII.  The last hyphen ends the characters of ASCII. -/
def decodeLabel? (encoded : List Char) : Option (List Char) :=
  let digits := (encoded.reverse.takeWhile (· != '-')).reverse
  let plain := encoded.take (encoded.length - digits.length - 1)
  putIn? 72 0x80 0 plain digits

end Http
end LadderDiagram
