/-!
# Sixteen-bit units

Offsets, lengths and cuts count sixteen-bit units, not characters: a character
outside the basic plane takes two.  Text itself stays a list of characters, and
the count is a measure on it.  Half of a two-unit character is no character of
its own, and the replacement character stands for it.
-/

namespace LadderDiagram
namespace Text

/-- The number of sixteen-bit units that one character takes. -/
def unitCount (char : Char) : Nat :=
  if char.toNat < 0x10000 then 1 else 2

/-- The length of a text in sixteen-bit units. -/
def unitLength (chars : List Char) : Nat :=
  chars.foldr (fun char length => unitCount char + length) 0

/-- The character that stands for half of another one. -/
def replacement : Char := '\uFFFD'

/-- The first unit of a character as it can be shown. -/
def firstUnit (char : Char) : Char :=
  if char.toNat < 0x10000 then char else replacement

def dropUnits (units : Nat) : List Char → List Char
  | [] => []
  | char :: rest =>
      if units = 0 then char :: rest
      else if units < unitCount char then replacement :: rest
      else dropUnits (units - unitCount char) rest

def takeUnits (units : Nat) : List Char → List Char
  | [] => []
  | char :: rest =>
      if units = 0 then []
      else if units < unitCount char then [replacement]
      else char :: takeUnits (units - unitCount char) rest

@[simp] theorem unitLength_nil : unitLength [] = 0 := rfl

@[simp] theorem unitLength_cons (char : Char) (chars : List Char) :
    unitLength (char :: chars) = unitCount char + unitLength chars := rfl

@[simp] theorem unitLength_append (first second : List Char) :
    unitLength (first ++ second) = unitLength first + unitLength second := by
  induction first with
  | nil => simp
  | cons char rest ih =>
      rw [List.cons_append, unitLength_cons, unitLength_cons, ih]
      omega

theorem unitCount_pos (char : Char) : 0 < unitCount char := by
  unfold unitCount
  split <;> decide

@[simp] theorem dropUnits_zero (chars : List Char) : dropUnits 0 chars = chars := by
  cases chars <;> simp [dropUnits]

end Text
end LadderDiagram
