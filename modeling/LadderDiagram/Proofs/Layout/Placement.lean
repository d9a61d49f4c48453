import LadderDiagram.Layout.Engine
import LadderDiagram.Proofs.Layout.Measures
import LadderDiagram.Proofs.Layout.Tree

/-!
# The layout of a tree

Where everything on a rung goes, by recursion on its tree and without a pass that keeps a
stack.  A rail is given its row and its origin; the rows that it needs depend on its
branches only, and its columns on what stands before them on the rail.  The end marker of
a branch stands behind the rail that reaches furthest.
-/

namespace LadderDiagram

/-! ### Rows -/

mutual

/-- The rows that the branches of a rail need below it: as many as the one that needs most. -/
def RailTree.innerRows : RailTree → Nat
  | .nil => 0
  | .instruction _ rest => rest.innerRows
  | .branch _ first further rest => max (1 + first.innerRows + further.rows) rest.innerRows

/-- The rows of further rails, with the rows below each of them. -/
def FurtherRails.rows : FurtherRails → Nat
  | .nil => 0
  | .rail _ own others => 1 + own.innerRows + others.rows

end

/-- The rows of a rail: its own one and those below it. -/
def RailTree.rows (tree : RailTree) : Nat := 1 + tree.innerRows

/-! ### Columns -/

namespace LayoutConfig

variable (config : LayoutConfig Rat)

def draftSize : Draft → Size Rat
  | .instruction content => config.sizeOf content.category
  | _ => config.sizes.branchMarker

/-- Where an item begins behind one with some right edge. -/
def behind (right : Rat) : Rat := right + config.elementSpacing + config.minimumWireLength

/-- Where an item of a rail begins, given the right edge of the item before it. -/
def itemX (originX : Rat) : Option Rat → Rat
  | none => originX + config.railOffset
  | some right => config.behind right

/--
How far a rail of a branch reaches: to the right edge of its last item, or to that of the
start marker if it has none.
-/
def railReach (startX : Rat) : Option Rat → Rat
  | none => startX + config.sizes.branchMarker.width
  | some right => right

end LayoutConfig

mutual

/-- The right edge of the last item of a rail, behind one with the right edge `last`. -/
def RailTree.lastRight (config : LayoutConfig Rat) (originX : Rat) (last : Option Rat) :
    RailTree → Option Rat
  | .nil => last
  | .instruction content rest =>
      rest.lastRight config originX
        (some (config.itemX originX last + (config.sizeOf content.category).width))
  | .branch _ first further rest =>
      let startX := config.itemX originX last
      let firstReach := config.railReach startX (first.lastRight config startX none)
      let endX := config.behind (max firstReach (further.reach config startX))
      rest.lastRight config originX (some (endX + config.sizes.branchMarker.width))

/-- How far the further rails of a branch reach that begins at `startX`. -/
def FurtherRails.reach (config : LayoutConfig Rat) (startX : Rat) : FurtherRails → Rat
  | .nil => startX + config.sizes.branchMarker.width
  | .rail _ own others =>
      max (config.railReach startX (own.lastRight config startX none))
        (others.reach config startX)

end

/-- How far a branch reaches before its end marker. -/
def branchReach (config : LayoutConfig Rat) (startX : Rat) (first : RailTree)
    (further : FurtherRails) : Rat :=
  max (config.railReach startX (first.lastRight config startX none)) (further.reach config startX)

/-- The right edge of a branch, which is that of its end marker. -/
def branchRight (config : LayoutConfig Rat) (startX : Rat) (first : RailTree)
    (further : FurtherRails) : Rat :=
  config.behind (branchReach config startX first further) + config.sizes.branchMarker.width

theorem RailTree.lastRight_branch (config : LayoutConfig Rat) (originX : Rat)
    (last : Option Rat) (id : BranchId) (first : RailTree) (further : FurtherRails)
    (rest : RailTree) :
    (RailTree.branch id first further rest).lastRight config originX last =
      rest.lastRight config originX
        (some (branchRight config (config.itemX originX last) first further)) := rfl

/-! ### Elements -/

/-- A rail on the drawing. -/
structure RailSite extends RailPlace where
  originX : Rat
  row : Nat

namespace RailSite

def main (config : LayoutConfig Rat) : RailSite := ⟨.main, config.leftRailX, 0⟩

/-- The first rail of a branch whose start marker stands at `startX` on a rail. -/
def inside (site : RailSite) (id : BranchId) (startX : Rat) : RailSite :=
  ⟨site.toRailPlace.inside id, startX, site.row + 1⟩

/-- Another rail of the same branch, on the same row. -/
def beside (site : RailSite) (id : BranchId) : RailSite :=
  { site with toRailPlace := site.toRailPlace.beside id }

def lowered (site : RailSite) (rows : Nat) : RailSite := { site with row := site.row + rows }

/-- An element that stands on a rail at `x`. -/
def put (site : RailSite) (config : LayoutConfig Rat) (input : RungInput Rat) (position : Nat)
    (draft : Draft) (x : Rat) : LayoutElement Rat where
  element := site.element position draft
  x := x
  y := input.rowY config site.row
  width := (config.draftSize draft).width
  height := (config.draftSize draft).height
  rungNumber := input.rungNumber
  railId := site.railId
  selected := false

end RailSite

mutual

/-- The elements of a rail from some position on, behind an item with the right edge `last`. -/
def RailTree.placed (config : LayoutConfig Rat) (input : RungInput Rat) (site : RailSite)
    (position : Nat) (last : Option Rat) : RailTree → List (LayoutElement Rat)
  | .nil => []
  | .instruction content rest =>
      let x := config.itemX site.originX last
      site.put config input position (.instruction content) x ::
        rest.placed config input site (position + 1)
          (some (x + (config.sizeOf content.category).width))
  | .branch id first further rest =>
      let startX := config.itemX site.originX last
      let endX := config.behind (branchReach config startX first further)
      let inner := site.inside id startX
      let next := position + 1 + first.drafts.length
      let close := next + further.drafts.length
      site.put config input position (.branchStart id) startX ::
        (first.placed config input inner (position + 1) none ++
          (further.placed config input (inner.lowered first.rows) next ++
            site.put config input close (.branchEnd id) endX ::
              rest.placed config input site (close + 1)
                (some (branchRight config startX first further))))

/-- The elements of further rails, the first of which is on the row of `site`. -/
def FurtherRails.placed (config : LayoutConfig Rat) (input : RungInput Rat) (site : RailSite)
    (position : Nat) : FurtherRails → List (LayoutElement Rat)
  | .nil => []
  | .rail id own others =>
      (site.beside id).put config input position (.branchNext id) site.originX ::
        (own.placed config input (site.beside id) (position + 1) none ++
          others.placed config input (site.lowered own.rows) (position + 1 + own.drafts.length))

end

mutual

/-- The elements of a rail are those of its annotated sequence. -/
theorem RailTree.map_element_placed (config : LayoutConfig Rat) (input : RungInput Rat)
    (site : RailSite) (position : Nat) (last : Option Rat) :
    ∀ tree : RailTree, (tree.placed config input site position last).map LayoutElement.element =
      tree.elements site.toRailPlace position
  | .nil => rfl
  | .instruction _ rest =>
      congrArg (List.cons _) (rest.map_element_placed config input site _ _)
  | .branch _ first further rest => by
      rw [RailTree.placed, RailTree.elements]
      simp only [List.map_cons, List.map_append]
      rw [first.map_element_placed, further.map_element_placed, rest.map_element_placed]
      rfl

theorem FurtherRails.map_element_placed (config : LayoutConfig Rat) (input : RungInput Rat)
    (site : RailSite) (position : Nat) :
    ∀ rails : FurtherRails, (rails.placed config input site position).map LayoutElement.element =
      rails.elements site.toRailPlace position
  | .nil => rfl
  | .rail _ own others => by
      rw [FurtherRails.placed, FurtherRails.elements]
      simp only [List.map_cons, List.map_append]
      rw [own.map_element_placed, others.map_element_placed]
      rfl

end

mutual

/-- Every element of a rail is one of the rung. -/
theorem RailTree.rungNumber_placed (config : LayoutConfig Rat) (input : RungInput Rat)
    (site : RailSite) (position : Nat) (last : Option Rat) :
    ∀ tree : RailTree, ∀ placed ∈ tree.placed config input site position last,
      placed.rungNumber = input.rungNumber
  | .nil => fun _ member => absurd member List.not_mem_nil
  | .instruction _ rest =>
      List.forall_mem_cons.mpr ⟨rfl, rest.rungNumber_placed config input site _ _⟩
  | .branch _ first further rest => by
      rw [RailTree.placed]
      simp only [List.forall_mem_cons, List.forall_mem_append]
      exact ⟨rfl, first.rungNumber_placed config input _ _ _,
        further.rungNumber_placed config input _ _, rfl,
        rest.rungNumber_placed config input _ _ _⟩

theorem FurtherRails.rungNumber_placed (config : LayoutConfig Rat) (input : RungInput Rat)
    (site : RailSite) (position : Nat) :
    ∀ rails : FurtherRails, ∀ placed ∈ rails.placed config input site position,
      placed.rungNumber = input.rungNumber
  | .nil => fun _ member => absurd member List.not_mem_nil
  | .rail _ own others => by
      rw [FurtherRails.placed]
      simp only [List.forall_mem_cons, List.forall_mem_append]
      exact ⟨rfl, own.rungNumber_placed config input _ _ _,
        others.rungNumber_placed config input _ _⟩

end

/-! ### Branches -/

/-- The handles of further rails, from top to bottom. -/
def FurtherRails.ids : FurtherRails → List BranchId
  | .nil => []
  | .rail id _ others => id :: others.ids

/-- The record of a branch that stands at `startX` on a rail. -/
def RailSite.branchRecord (site : RailSite) (config : LayoutConfig Rat) (input : RungInput Rat)
    (position : Nat) (id : BranchId) (startX : Rat) (first : RailTree) (further : FurtherRails) :
    Branch Rat where
  id := id
  rungNumber := input.rungNumber
  parentId := site.railId
  childIds := further.ids
  rootId := site.rootId.getD id
  startPosition := .ofNat position
  endPosition := .ofNat (position + 1 + first.drafts.length + further.drafts.length)
  branchLevel := .ofNat site.level
  startX := startX
  endX := branchRight config startX first further
  branchY := input.rowY config ((site.row + 1 : Nat) : Rat)
  startY := input.rowY config ((site.row + 1 : Nat) : Rat)
  endY := input.rowY config ((site.row + 1 + first.rows + further.rows : Nat) : Rat) - 1

/-- The record of a further rail of a branch, on some row. -/
def Branch.railRecord (branch : Branch Rat) (config : LayoutConfig Rat) (input : RungInput Rat)
    (position : Nat) (id : BranchId) (row : Nat) (own : RailTree) : Branch Rat :=
  { branch with
    id := id
    parentId := some branch.id
    childIds := []
    startPosition := .ofNat position
    endPosition := .ofNat (position + own.drafts.length)
    branchY := input.rowY config (row : Rat)
    startY := input.rowY config (row : Rat)
    endY := input.rowY config ((row + own.rows : Nat) : Rat) - 1 }

mutual

/-- The records of the branches on a rail and inside them, in the order of their markers. -/
def RailTree.records (config : LayoutConfig Rat) (input : RungInput Rat) (site : RailSite)
    (position : Nat) (last : Option Rat) : RailTree → List (Branch Rat)
  | .nil => []
  | .instruction content rest =>
      rest.records config input site (position + 1)
        (some (config.itemX site.originX last + (config.sizeOf content.category).width))
  | .branch id first further rest =>
      let startX := config.itemX site.originX last
      let inner := site.inside id startX
      let branch := site.branchRecord config input position id startX first further
      let next := position + 1 + first.drafts.length
      let close := next + further.drafts.length
      branch ::
        (first.records config input inner (position + 1) none ++
          (further.records config input (inner.lowered first.rows) branch next ++
            rest.records config input site (close + 1)
              (some (branchRight config startX first further))))

/-- The records of the further rails of a branch and of the branches on them. -/
def FurtherRails.records (config : LayoutConfig Rat) (input : RungInput Rat) (site : RailSite)
    (branch : Branch Rat) (position : Nat) : FurtherRails → List (Branch Rat)
  | .nil => []
  | .rail id own others =>
      branch.railRecord config input position id site.row own ::
        (own.records config input (site.beside id) (position + 1) none ++
          others.records config input (site.lowered own.rows) branch
            (position + 1 + own.drafts.length))

end

/-! ### Rungs -/

mutual

/-- The greatest number of branches that are open at once. -/
def RailTree.depth : RailTree → Nat
  | .nil => 0
  | .instruction _ rest => rest.depth
  | .branch _ first further rest => max (1 + max first.depth further.depth) rest.depth

def FurtherRails.depth : FurtherRails → Nat
  | .nil => 0
  | .rail _ own others => max own.depth others.depth

end

/-- The layout of a rung with a tree. -/
def RailTree.layout (config : LayoutConfig Rat) (input : RungInput Rat) (tree : RailTree) :
    LayoutResult Rat :=
  let commentHeight := input.commentLines * config.commentLineHeight
  let rightEdge := (tree.lastRight config config.leftRailX none).getD config.leftRailX
  { rungNumber := input.rungNumber
    y := input.y
    height := 2 * config.rungPadding + commentHeight + tree.rows * config.branchSpacing
    commentHeight := commentHeight
    rowCount := tree.rows
    maxBranchDepth := .ofNat tree.depth
    rightEdge := rightEdge
    rightRailX := max config.rightRailMinX (rightEdge + config.railOffset)
    elements := tree.placed config input (.main config) 0 none
    branches := tree.records config input (.main config) 0 none }

end LadderDiagram
