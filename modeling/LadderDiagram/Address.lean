import LadderDiagram.Json.Basic
import LadderDiagram.Decimal.Notation

/-!
# Addresses

Positions, levels, rungs and branches are named by number, and a number that
comes from outside need not be a whole one.  An address keeps the two cases
apart, so that the rules about sequences speak of whole numbers only and any
other number is simply outside every range.
-/

namespace LadderDiagram

/-- A number that names a position, a level, a rung or a branch. -/
inductive Address
  /-- A whole number. -/
  | whole (value : Int)
  /-- A fraction, a number too large to count with, or no number at all. -/
  | other (value : Float)
  deriving DecidableEq, Repr

namespace Address

instance : Inhabited Address := ⟨.whole 0⟩

def ofFloat (value : Float) : Address :=
  match Decimal.wholeNumber? value with
  | some value => .whole value
  | none => .other value

/-- The address of a place counted from zero. -/
def ofNat (value : Nat) : Address := .whole value

def toFloat : Address → Float
  | .whole value => Float.ofInt value
  | .other value => value

def text : Address → String
  | .whole value => Decimal.wholeText value
  | .other value => Decimal.numberText value

def toJson : Address → Json
  | .whole value => .ofInt value
  | .other value => .num value

/-- The place counted from zero that an address names. -/
def toNat? : Address → Option Nat
  | .whole (.ofNat value) => some value
  | _ => none

/-- The place that an address names if it is not beyond `bound`. -/
def upTo? (bound : Nat) (address : Address) : Option Nat :=
  address.toNat?.filter (· ≤ bound)

def below? (bound : Nat) (address : Address) : Option Nat :=
  address.toNat?.filter (· < bound)

def isAfter : Address → Address → Bool
  | .whole first, .whole second => second < first
  | first, second => second.toFloat < first.toFloat

def isUpTo : Address → Address → Bool
  | .whole first, .whole second => first ≤ second
  | first, second => first.toFloat ≤ second.toFloat

def previous : Address → Address
  | .whole value => .whole (value - 1)
  | .other value => ofFloat (value - 1)

def next : Address → Address
  | .whole value => .whole (value + 1)
  | .other value => ofFloat (value + 1)

def later (first second : Address) : Address := if second.isAfter first then second else first

def earlier (first second : Address) : Address := if first.isAfter second then second else first

/-- The number of places, counted from zero up to a bound, that come before an address. -/
def placesBefore (bound : Nat) (address : Address) : Nat :=
  (List.range bound).countP fun place => address.isAfter (.ofNat place)

@[simp] theorem toNat?_ofNat (value : Nat) : (ofNat value).toNat? = some value := rfl

@[simp] theorem next_ofNat (value : Nat) : (ofNat value).next = ofNat (value + 1) := rfl

@[simp] theorem ofNat_inj {first second : Nat} : ofNat first = ofNat second ↔ first = second := by
  simp only [ofNat, whole.injEq]
  omega

theorem upTo?_eq_some_iff {bound place : Nat} {address : Address} :
    address.upTo? bound = some place ↔ address = ofNat place ∧ place ≤ bound := by
  cases address with
  | whole value =>
      cases value with
      | ofNat own =>
          simp only [upTo?, toNat?, Option.filter_eq_some_iff, Option.some.injEq,
            decide_eq_true_eq, ofNat]
          constructor
          · rintro ⟨rfl, bounded⟩
            exact ⟨rfl, bounded⟩
          · rintro ⟨same, bounded⟩
            injection same with same
            exact ⟨Int.ofNat.inj same, bounded⟩
      | negSucc own =>
          simp only [upTo?, toNat?, Option.filter_none, reduceCtorEq, false_iff, ofNat]
          rintro ⟨same, _⟩
          injection same with same
          cases same
  | other value =>
      simp only [upTo?, toNat?, Option.filter_none, reduceCtorEq, false_iff, ofNat]
      rintro ⟨same, _⟩
      cases same

end Address
end LadderDiagram
