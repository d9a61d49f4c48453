/-!
# Binary form of a double

A finite double is a whole number times a power of two.  This module reads that
form off the bits, so that the text of a number can be computed in whole
numbers throughout.
-/

namespace LadderDiagram
namespace Decimal

/-- What the bits of a double stand for. -/
inductive Binary
  | finite (negative : Bool) (mantissa : Nat) (exponent : Int)
  | infinite (negative : Bool)
  | undefined
  deriving DecidableEq, Repr

/-- The smallest exponent of a double, that of the subnormal numbers. -/
def minExponent : Int := -1074

/-- The mantissa of the smallest double with its exponent. -/
def leadingMantissa : Nat := Nat.pow 2 52

def Binary.ofFloat (value : Float) : Binary :=
  let bits := value.toBits.toNat
  let negative := bits / Nat.pow 2 63 == 1
  let exponent : Nat := bits / Nat.pow 2 52 % Nat.pow 2 11
  let fraction := bits % Nat.pow 2 52
  if exponent == 2047 then
    if fraction == 0 then .infinite negative else .undefined
  else if exponent == 0 then .finite negative fraction minExponent
  else .finite negative (leadingMantissa + fraction) ((exponent : Int) - 1075)

/-- The whole number that a mantissa and an exponent stand for, if it is one. -/
def wholeValue? (mantissa : Nat) : Int → Option Nat
  | .ofNat power => some (mantissa * Nat.pow 2 power)
  | .negSucc power =>
      let unit := Nat.pow 2 (power + 1)
      if mantissa % unit == 0 then some (mantissa / unit) else none

/--
The whole number that a double stands for, if it lies strictly between
`-2^53` and `2^53`, where every whole number has a double of its own.
-/
def wholeNumber? (value : Float) : Option Int :=
  match Binary.ofFloat value with
  | .finite negative mantissa exponent =>
      if 0 < exponent then none
      else
        match wholeValue? mantissa exponent with
        | some whole => some (if negative then -whole else whole)
        | none => none
  | _ => none

end Decimal
end LadderDiagram
