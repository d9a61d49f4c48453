import LadderDiagram.Layout.Config
import LadderDiagram.Layout.Pass

/-!
# Laying out a rung

One rung is laid out in a single pass from left to right.  A rail's elements
follow one another at a fixed distance; a branch takes the rows below its rail,
one for its first rail and as many as its rails need, and its end marker stands
right of everything inside it.  The result depends only on the elements, the
number of comment lines, the height at which the rung begins and the
configuration.
-/

namespace LadderDiagram

/-- An element on the drawing. -/
structure LayoutElement (α : Type) where
  element : Element
  x : α
  y : α
  width : α
  height : α
  rungNumber : Address
  /-- The rail on whose row the element is drawn. -/
  railId : Option BranchId
  selected : Bool

namespace LayoutElement

variable {α : Type}

def kind (placed : LayoutElement α) : ElementKind := placed.element.kind

def position (placed : LayoutElement α) : Address := placed.element.position

def branchId (placed : LayoutElement α) : Option BranchId := placed.element.branchId

def right [Scalar α] (placed : LayoutElement α) : α := placed.x + placed.width

end LayoutElement

/-- A rung on the drawing. -/
structure LayoutResult (α : Type) where
  rungNumber : Address
  y : α
  height : α
  commentHeight : α
  rowCount : α
  maxBranchDepth : Address
  /-- The right edge of the rightmost element. -/
  rightEdge : α
  rightRailX : α
  elements : List (LayoutElement α)
  branches : List (Branch α)

/-- What the layout of a rung depends on, beside the configuration. -/
structure RungInput (α : Type) where
  rungNumber : Address
  y : α
  elements : List Element
  commentLines : α

/-- A layout between two elements. -/
structure LayoutState (α : Type) where
  pass : BranchPass α
  mainRail : RailCursor α
  /-- The lowest row in use. -/
  maxRow : α
  rightEdge : α
  /-- The elements placed so far, in reverse. -/
  placed : List (LayoutElement α)

namespace RungInput

variable {α : Type} [Scalar α]

def commentHeight (input : RungInput α) (config : LayoutConfig α) : α :=
  input.commentLines * config.commentLineHeight

def rowY (input : RungInput α) (config : LayoutConfig α) (row : α) : α :=
  input.y + config.rungPadding + input.commentHeight config + row * config.branchSpacing

end RungInput

namespace LayoutState

variable {α : Type} [Scalar α]

/-- The layout of a rung before its first element. -/
def start (config : LayoutConfig α) (arena : Arena α) (input : RungInput α) :
    LayoutState α where
  pass := (BranchPass.idle arena).start input.rungNumber
  mainRail := ⟨none, config.leftRailX, Scalar.ofNat 0, none⟩
  maxRow := Scalar.ofNat 0
  rightEdge := config.leftRailX
  placed := []

def rail (state : LayoutState α) : RailCursor α :=
  match state.pass.top? with
  | some context => context.rail
  | none => state.mainRail

def mapRail (state : LayoutState α) (change : RailCursor α → RailCursor α) : LayoutState α :=
  match state.pass.top? with
  | some _ =>
      { state with
        pass := state.pass.mapTop fun context => { context with rail := change context.rail } }
  | none => { state with mainRail := change state.mainRail }

def nextX (config : LayoutConfig α) (rail : RailCursor α) : α :=
  match rail.lastRight with
  | none => rail.originX + config.railOffset
  | some right => right + config.elementSpacing + config.minimumWireLength

/-- Takes the next place on the current rail for an element of some width. -/
def takePlace (state : LayoutState α) (config : LayoutConfig α) (width : α) :
    α × LayoutState α :=
  let x := nextX config state.rail
  let right := x + width
  let advanced := state.mapRail fun rail => { rail with lastRight := some right }
  let pass := advanced.pass.mapTop fun context =>
    { context with maxRight := Scalar.max context.maxRight right }
  (x, { advanced with pass := pass, rightEdge := Scalar.max state.rightEdge right })

def emit (state : LayoutState α) (rungNumber : Address) (element : Element) (x y : α)
    (size : Size α) (railId : Option BranchId) : LayoutState α :=
  let placed : LayoutElement α :=
    ⟨element, x, y, size.width, size.height, rungNumber, railId, false⟩
  { state with placed := placed :: state.placed }

def step (config : LayoutConfig α) (input : RungInput α) (state : LayoutState α)
    (element : Element) : Except LadderError (LayoutState α) :=
  let rowY := input.rowY config
  let marker := config.sizes.branchMarker
  match element.draft with
  | .instruction instruction =>
      let rail := state.rail
      let size := config.sizeOf instruction.category
      let (x, next) := state.takePlace config size.width
      .ok (next.emit input.rungNumber element x (rowY rail.row) size rail.railId)
  | .branchStart id =>
      let rail := state.rail
      let (x, next) := state.takePlace config marker.width
      let row := rail.row + Scalar.ofNat 1
      let pass := next.pass.openBranch id element
        ⟨input.rungNumber, x, marker.width, row, rowY row, rail.railId⟩
      let opened := { next with pass := pass, maxRow := Scalar.max next.maxRow row }
      .ok (opened.emit input.rungNumber element x (rowY rail.row) marker rail.railId)
  | .branchNext id =>
      match state.pass.nextRail id element.position rowY with
      | .error error => .error error
      | .ok (child, pass) =>
          let next := { state with pass := pass }
          let lowered := { next with maxRow := Scalar.max next.maxRow next.rail.row }
          .ok (lowered.emit input.rungNumber element child.startX child.branchY marker
            (some child.id))
  | .branchEnd id =>
      let markerX (context : OpenContext α) : α :=
        context.maxRight + config.elementSpacing + config.minimumWireLength
      match state.pass.closeBranch id element.position fun context _ =>
          ⟨markerX context + marker.width,
            rowY context.maxRow + config.branchSpacing - Scalar.ofNat 1⟩ with
      | (.error error, _) => .error error
      | (.ok (_, context), pass) =>
          let x := markerX context
          let right := x + marker.width
          let closed := { state with pass := pass }
          let next := closed.mapRail fun rail => { rail with lastRight := some right }
          let widened := { next with rightEdge := Scalar.max next.rightEdge right }
          .ok (widened.emit input.rungNumber element x (rowY next.rail.row) marker
            next.rail.railId)

def run (config : LayoutConfig α) (input : RungInput α) (state : LayoutState α) :
    List Element → Except LadderError (LayoutState α)
  | [] => .ok state
  | element :: rest =>
      match state.step config input element with
      | .error error => .error error
      | .ok next => next.run config input rest

/-- The layout of a rung once its elements are placed. -/
def result (state : LayoutState α) (config : LayoutConfig α) (input : RungInput α)
    (branches : List (Branch α)) : LayoutResult α :=
  let rowCount := state.maxRow + Scalar.ofNat 1
  let commentHeight := input.commentHeight config
  { rungNumber := input.rungNumber
    y := input.y
    height := Scalar.ofNat 2 * config.rungPadding + commentHeight +
      rowCount * config.branchSpacing
    commentHeight := commentHeight
    rowCount := rowCount
    maxBranchDepth :=
      branches.foldl (fun depth branch => depth.later branch.branchLevel.next) (.ofNat 0)
    rightEdge := state.rightEdge
    rightRailX := Scalar.max config.rightRailMinX (state.rightEdge + config.railOffset)
    elements := state.placed.reverse
    branches := branches }

end LayoutState

/--
The layout of a rung with the arena that holds its branches.  When the markers
of the elements do not pair up, there is neither.
-/
def layoutRung {α : Type} [Scalar α] (config : LayoutConfig α) (arena : Arena α)
    (input : RungInput α) : Except LadderError (LayoutResult α × Arena α) :=
  match (LayoutState.start config arena input).run config input input.elements with
  | .error error => .error error
  | .ok state =>
      match state.pass.commit with
      | .error error => .error error
      | .ok (branches, pass) => .ok (state.result config input branches, pass.arena)

end LadderDiagram
