import LadderDiagram.Decimal.Binary

/-!
# Shortest decimals

The fewest decimal digits that read back to a given double, and of those the
nearest to it.  A double stands for all reals closer to it than to its
neighbours; the ends of that interval belong to it when its mantissa is even.
For one digit, two digits and so on, the two neighbours of the value on the
decimal grid with that many digits are tested against the interval.  All
arithmetic is on whole numbers.
-/

namespace LadderDiagram
namespace Decimal

/--
A positive decimal: `digits`, read as a whole number, with the decimal point
`point` places after its first digit.
-/
structure Digits where
  digits : List Nat
  point : Int
  deriving DecidableEq, Repr

structure Fraction where
  numerator : Nat
  denominator : Nat

/-- A whole number times a power of two as a fraction. -/
def Fraction.ofBinary (mantissa : Nat) : Int → Fraction
  | .ofNat power => ⟨mantissa * Nat.pow 2 power, 1⟩
  | .negSucc power => ⟨mantissa, Nat.pow 2 (power + 1)⟩

def Fraction.le (first second : Fraction) : Bool :=
  first.numerator * second.denominator ≤ second.numerator * first.denominator

def Fraction.lt (first second : Fraction) : Bool :=
  first.numerator * second.denominator < second.numerator * first.denominator

def Fraction.scale (value : Fraction) : Int → Fraction
  | .ofNat power => ⟨value.numerator * Nat.pow 10 power, value.denominator⟩
  | .negSucc power => ⟨value.numerator, value.denominator * Nat.pow 10 (power + 1)⟩

def Fraction.floor (value : Fraction) : Nat :=
  value.numerator / value.denominator

/-- The reals that round to one double. -/
structure RoundingInterval where
  lower : Fraction
  upper : Fraction
  closed : Bool

/--
The interval of a positive double.  Below the smallest mantissa the spacing of
doubles halves, except at the smallest exponent.
-/
def RoundingInterval.ofBinary (mantissa : Nat) (exponent : Int) : RoundingInterval :=
  let lower :=
    if mantissa == leadingMantissa && exponent != minExponent then
      Fraction.ofBinary (4 * mantissa - 1) (exponent - 2)
    else Fraction.ofBinary (2 * mantissa - 1) (exponent - 1)
  ⟨lower, Fraction.ofBinary (2 * mantissa + 1) (exponent - 1), mantissa % 2 == 0⟩

def RoundingInterval.contains (interval : RoundingInterval) (value : Fraction) : Bool :=
  if interval.closed then interval.lower.le value && value.le interval.upper
  else interval.lower.lt value && value.lt interval.upper

/-- The number of decimal digits of a whole number; zero has none. -/
def digitCount (value : Nat) : Nat :=
  if value == 0 then 0 else (Nat.toDigits 10 value).length

/--
The place of the decimal point of a positive fraction: the least `point` for
which the fraction is below `10 ^ point`.
-/
def Fraction.point (value : Fraction) : Int :=
  if value.denominator ≤ value.numerator then digitCount value.floor
  else
    let inverse := (value.denominator - 1) / value.numerator
    -- `10 ^ k ≤ denominator / numerator` places the first digit after `k` zeros.
    let zeros := digitCount inverse
    1 - (zeros : Int)

/-- The better of the two grid neighbours of a value that round to its double. -/
def gridHit? (interval : RoundingInterval) (value : Fraction) (point : Int)
    (count : Nat) : Option Nat :=
  let scaled := value.scale (count - point)
  let below := scaled.floor
  let onGrid (digits : Nat) : Fraction := (⟨digits, 1⟩ : Fraction).scale (point - count)
  let belowHits := below != 0 && interval.contains (onGrid below)
  let aboveHits := interval.contains (onGrid (below + 1))
  -- Twice the remainder against the denominator says which neighbour is nearer.
  let twice := 2 * (scaled.numerator % scaled.denominator)
  let nearer :=
    if twice < scaled.denominator then below
    else if scaled.denominator < twice then below + 1
    else if below % 2 == 0 then below else below + 1
  match belowHits, aboveHits with
  | true, true => some nearer
  | true, false => some below
  | false, true => some (below + 1)
  | false, false => none

/-- A whole number's decimal digits, without the zeros at its end. -/
def significantDigits (value : Nat) : List Nat :=
  let digits := (Nat.toDigits 10 value).map fun char => char.toNat - '0'.toNat
  (digits.reverse.dropWhile (· == 0)).reverse

/--
The shortest decimal of a positive double given by its mantissa and exponent.
Seventeen digits always suffice, so the search ends there.
-/
def shortest (mantissa : Nat) (exponent : Int) : Digits :=
  let value := Fraction.ofBinary mantissa exponent
  let interval := RoundingInterval.ofBinary mantissa exponent
  let point := value.point
  match (List.range 17).findSome? fun index =>
      (gridHit? interval value point (index + 1)).map (index + 1, ·) with
  | some (count, digits) =>
      -- A neighbour above may be the next power of ten, with one digit more.
      ⟨significantDigits digits, point + (digitCount digits - count : Int)⟩
  | none => ⟨[], 0⟩

end Decimal
end LadderDiagram
