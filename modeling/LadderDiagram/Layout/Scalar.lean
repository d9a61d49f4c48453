/-!
# Scalars

Coordinates are doubles when the program runs and exact rational numbers when
its geometry is reasoned about.  The layout is written once, over any type with
the arithmetic and the comparisons that it needs.
-/

namespace LadderDiagram

/-- The numbers in which a drawing is measured. -/
class Scalar (α : Type) extends Add α, Sub α, Mul α where
  ofNat : Nat → α
  half : α → α
  /-- The nearest whole number, the greater one of two. -/
  round : α → α
  isWhole : α → Bool
  lt : α → α → Bool
  le : α → α → Bool
  eq : α → α → Bool
  /-- The greater of two numbers. -/
  max : α → α → α
  /-- The number as reports show it. -/
  toFloat : α → Float

namespace Scalar

/-- The nearest whole number to a double; its fraction is compared exactly. -/
def roundFloat (value : Float) : Float :=
  if value - value.floor < 0.5 then value.floor else value.floor + 1

/-- The greater of two doubles; a number that is none stays. -/
def maxFloat (first second : Float) : Float :=
  if first.isNaN then first
  else if second.isNaN then second
  else if first < second then second
  else first

instance : Scalar Float where
  ofNat := Float.ofNat
  half value := value / 2
  round := roundFloat
  isWhole value := value.isFinite && value.floor == value
  lt first second := first < second
  le first second := first ≤ second
  eq first second := first == second
  max := maxFloat
  toFloat value := value

instance : Scalar Rat where
  ofNat value := (value : Rat)
  half value := value / 2
  round value := ((value + 1 / 2).floor : Rat)
  isWhole value := value.den == 1
  lt first second := decide (first < second)
  le first second := decide (first ≤ second)
  eq first second := decide (first = second)
  max first second := if first < second then second else first
  toFloat value := Float.ofInt value.num / Float.ofNat value.den

variable {α : Type} [Scalar α]

def distance (first second : α) : α :=
  if lt first second then second - first else first - second

def within (low value high : α) : Bool := le low value && le value high

/-- Whether a number lies in an interval without its upper end. -/
def inside (low value high : α) : Bool := le low value && lt value high

end Scalar
end LadderDiagram
