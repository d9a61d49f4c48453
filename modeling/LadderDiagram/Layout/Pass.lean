import LadderDiagram.Error
import LadderDiagram.Layout.Branch

/-!
# Passes over branches

While a rung is laid out from left to right, a pass tracks the branches that are
open and records every branch and rail it has met, in the order of their
markers.  The records reach the arena only when the pass is committed with no
branch open.
-/

namespace LadderDiagram

structure RailCursor (α : Type) where
  railId : Option BranchId
  originX : α
  row : α
  /-- The right edge of the last element on the rail. -/
  lastRight : Option α

/-- A branch that is open, with the row and the width it has used so far. -/
structure OpenContext (α : Type) where
  /-- The place of the branch among the records of the pass. -/
  slot : Nat
  rail : RailCursor α
  /-- The places of its further rails among the records. -/
  children : List Nat
  maxRight : α
  maxRow : α

/-- Where a branch opens. -/
structure BranchOpening (α : Type) where
  rungNumber : Address
  startX : α
  markerWidth : α
  row : α
  rowY : α
  parentRailId : Option BranchId

/-- Where a branch closes. -/
structure BranchClosing (α : Type) where
  endX : α
  endY : α

/-- A pass over the branches of one rung. -/
structure BranchPass (α : Type) where
  arena : Arena α
  /-- The rung of the pass, if one has begun. -/
  rungNumber : Option Address
  /-- The open branches, innermost first. -/
  contexts : List (OpenContext α)
  records : List (Branch α)

namespace BranchPass

variable {α : Type}

/-- The state between two passes. -/
def idle (arena : Arena α) : BranchPass α := ⟨arena, none, [], []⟩

/-- Begins the pass over a rung; whatever was open is forgotten. -/
def start (pass : BranchPass α) (rungNumber : Address) : BranchPass α :=
  ⟨pass.arena, some rungNumber, [], []⟩

/-- Ends a pass without a trace. -/
def abort (pass : BranchPass α) : BranchPass α := idle pass.arena

def top? (pass : BranchPass α) : Option (OpenContext α) := pass.contexts.head?

/-- The records of an open branch's further rails. -/
def childrenOf (pass : BranchPass α) (context : OpenContext α) : List (Branch α) :=
  context.children.filterMap (pass.records[·]?)

def mapTop (pass : BranchPass α) (change : OpenContext α → OpenContext α) : BranchPass α :=
  match pass.contexts with
  | [] => pass
  | context :: outer => { pass with contexts := change context :: outer }

/-- Opens a branch at its start marker; its first rail takes a row of its own. -/
def openBranch [Scalar α] (pass : BranchPass α) (id : BranchId) (element : Element)
    (opening : BranchOpening α) : BranchPass α :=
  let branch : Branch α :=
    { id := id
      rungNumber := opening.rungNumber
      parentId := opening.parentRailId
      childIds := []
      rootId := element.rootBranchId.getD id
      startPosition := element.position
      endPosition := element.position
      branchLevel := element.branchLevel
      startX := opening.startX
      endX := opening.startX + opening.markerWidth
      branchY := opening.rowY
      startY := opening.rowY
      endY := opening.rowY }
  let context : OpenContext α :=
    { slot := pass.records.length
      rail := ⟨some id, opening.startX, opening.row, none⟩
      children := []
      maxRight := branch.endX
      maxRow := opening.row }
  { pass with contexts := context :: pass.contexts, records := pass.records ++ [branch] }

/-- Opens a further rail below everything that its branch has used so far. -/
def nextRail [Scalar α] (pass : BranchPass α) (id : BranchId) (position : Address)
    (rowY : α → α) : Except LadderError (Branch α × BranchPass α) :=
  let outside := .error (.unbalanced (.laidRailOutsideBranch id position))
  match pass.contexts with
  | [] => outside
  | context :: outer =>
      match pass.records[context.slot]? with
      | none => outside
      | some parent =>
          let row := context.maxRow + Scalar.ofNat 1
          let child : Branch α :=
            { parent with
              id := id
              parentId := some parent.id
              childIds := []
              startPosition := position
              endPosition := position
              branchY := rowY row
              startY := rowY row
              endY := rowY row }
          let grown := { parent with childIds := parent.childIds ++ [id] }
          let moved : OpenContext α :=
            { context with
              rail := ⟨some id, parent.startX, row, none⟩
              children := context.children ++ [pass.records.length]
              maxRow := row }
          .ok (child,
            { pass with
              contexts := moved :: outer
              records := pass.records.set context.slot grown ++ [child] })

/--
The further rails of a branch that has been closed: each ends just above the
next one, the last one with its branch.
-/
def finishChildren [Scalar α] (closingPosition : Address) (closing : BranchClosing α) :
    List (Branch α) → List (Branch α)
  | [] => []
  | [last] =>
      [{ last with
        endPosition := closingPosition.previous, endX := closing.endX, endY := closing.endY }]
  | child :: following :: rest =>
      { child with
        endPosition := following.startPosition.previous
        endX := closing.endX
        endY := following.branchY - Scalar.ofNat 1 } ::
          finishChildren closingPosition closing (following :: rest)

/-- Records put into their places one after the other. -/
def setAll (records : List (Branch α)) : List Nat → List (Branch α) → List (Branch α)
  | slot :: slots, branch :: branches => setAll (records.set slot branch) slots branches
  | _, _ => records

/--
Closes the innermost branch at its end marker.  A marker with another handle
fails, and the branch is no longer open after that.
-/
def closeBranch [Scalar α] (pass : BranchPass α) (id : BranchId) (position : Address)
    (closingOf : OpenContext α → Branch α → BranchClosing α) :
    Except LadderError (Branch α × OpenContext α) × BranchPass α :=
  let outside := .error (.unbalanced (.laidEndWithoutBranch id position))
  match pass.contexts with
  | [] => (outside, pass)
  | context :: outer =>
      let popped := { pass with contexts := outer }
      match pass.records[context.slot]? with
      | none => (outside, popped)
      | some branch =>
          if branch.id ≠ id then
            (.error (.unbalanced (.crossedEnd branch.id id position)), popped)
          else
            let closing := closingOf context branch
            let closed :=
              { branch with endPosition := position, endX := closing.endX, endY := closing.endY }
            let records := pass.records.set context.slot closed
            let children := finishChildren position closing (pass.childrenOf context)
            let finished := { popped with records := setAll records context.children children }
            (.ok (closed, context),
              finished.mapTop fun parent =>
                { parent with
                  maxRow := Scalar.max parent.maxRow context.maxRow
                  maxRight := Scalar.max parent.maxRight closing.endX })

/-- Ends the pass; its records become those of its rung. -/
def commit (pass : BranchPass α) : Except LadderError (List (Branch α) × BranchPass α) :=
  match pass.contexts with
  | context :: _ =>
      let id := (pass.records[context.slot]?.map (·.id)).getD default
      .error (.unbalanced (.unclosed id))
  | [] =>
      let arena :=
        match pass.rungNumber with
        | some rungNumber => pass.arena.replaceRung rungNumber pass.records
        | none => pass.arena
      .ok (pass.records, idle arena)

end BranchPass
end LadderDiagram
