import LadderDiagram.Layout.Scalar
import LadderDiagram.Sequence.Basic

/-!
# Branch records

The box of a branch or of one of its further rails on the drawing, and the
arena that keeps the records of a whole routine by their handles.
-/

namespace LadderDiagram

/-- A laid-out branch, standing for its first rail as well, or a further rail. -/
structure Branch (α : Type) where
  id : BranchId
  rungNumber : Address
  /-- The rail on which a branch stands; the branch to which a further rail belongs. -/
  parentId : Option BranchId
  /-- The further rails of a branch, from top to bottom. -/
  childIds : List BranchId
  rootId : BranchId
  startPosition : Address
  /-- The last position; a further rail ends before the marker that follows it. -/
  endPosition : Address
  branchLevel : Address
  startX : α
  endX : α
  branchY : α
  startY : α
  endY : α

/-- The records of a routine, in ascending order of their handles. -/
structure Arena (α : Type) where
  records : List (Branch α)

namespace Arena

variable {α : Type}

def empty : Arena α := ⟨[]⟩

/-- The record with a handle. -/
def get? (arena : Arena α) (id : BranchId) : Option (Branch α) :=
  arena.records.find? (·.id == id)

def forRung (arena : Arena α) (rungNumber : Address) : List (Branch α) :=
  arena.records.filter (·.rungNumber == rungNumber)

def clearRung (arena : Arena α) (rungNumber : Address) : Arena α :=
  ⟨arena.records.filter (·.rungNumber != rungNumber)⟩

/-- A list of records with one more in its place, instead of one with its handle. -/
def insertRecord (branch : Branch α) : List (Branch α) → List (Branch α)
  | [] => [branch]
  | first :: rest =>
      if first.id.isAfter branch.id then branch :: first :: rest
      else if branch.id = first.id then branch :: rest
      else first :: insertRecord branch rest

def insert (arena : Arena α) (branch : Branch α) : Arena α :=
  ⟨insertRecord branch arena.records⟩

def replaceRung (arena : Arena α) (rungNumber : Address) (branches : List (Branch α)) : Arena α :=
  branches.foldl insert (arena.clearRung rungNumber)

/--
The arena after rungs have been added or removed: every record under the number
that its rung has now, and without the records of rungs that have none.
-/
def renumber (arena : Arena α) (number? : Address → Option Address) : Arena α :=
  ⟨arena.records.filterMap fun branch =>
    (number? branch.rungNumber).map fun number => { branch with rungNumber := number }⟩

end Arena
end LadderDiagram
