/-!
# Ranges of characters

Tables name characters by their numbers in the Unicode standard: in closed
ranges, or in runs whose characters all have another character at one distance.
-/

namespace LadderDiagram
namespace Text

/-- Whether a character lies in one of some closed ranges. -/
def isWithin (ranges : List (Nat × Nat)) (char : Char) : Bool :=
  ranges.any fun (first, last) => first ≤ char.toNat && char.toNat ≤ last

/--
A run of characters from `first` to `last`, every `step`-th of which has another
character at the same `distance`.
-/
structure Shift where
  first : Nat
  last : Nat
  step : Nat
  distance : Int

def Shift.holds (run : Shift) (char : Char) : Bool :=
  run.first ≤ char.toNat && char.toNat ≤ run.last &&
    (char.toNat - run.first) % run.step == 0

def Shift.shifted (run : Shift) (char : Char) : Char :=
  Char.ofNat (char.toNat + run.distance).toNat

/-- The other character of a character that one of some runs holds. -/
def shift? (runs : List Shift) (char : Char) : Option Char :=
  (runs.find? (·.holds char)).map (·.shifted char)

end Text
end LadderDiagram
