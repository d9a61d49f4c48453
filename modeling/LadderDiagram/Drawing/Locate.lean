import LadderDiagram.Drawing.Basic

/-!
# Finding places on a drawing

A point on the drawing belongs to a rung and to the innermost rail whose box
contains it.  On that rail it names the gap before or after the nearest
instruction or nested branch, which counts as one block.
-/

namespace LadderDiagram

/-- A gap of a rung with the rail on which it lies. -/
structure InsertionTarget where
  rungNumber : Address
  branchLevel : Address
  branchId : Option BranchId
  position : Address
  deriving DecidableEq, Repr

/-- The rail under a point. -/
structure RailHit where
  rungNumber : Address
  branchLevel : Address
  branchId : Option BranchId
  deriving DecidableEq, Repr

/-- A block on a rail: its centre and the gaps before and after it. -/
structure RailBlock (α : Type) where
  center : α
  before : Address
  after : Address

namespace Branch

variable {α : Type} [Scalar α]

/-- Whether a point lies in the box of a branch, its edges included. -/
def contains (branch : Branch α) (x y : α) : Bool :=
  Scalar.within branch.startX x branch.endX && Scalar.within branch.startY y branch.endY

/-- The number of points of a branch's box. -/
def area (branch : Branch α) : α :=
  (branch.endX - branch.startX + Scalar.ofNat 1) *
    (branch.endY - branch.startY + Scalar.ofNat 1)

/-- The branch with the smaller box; of two equal ones the second. -/
def smaller (best : Option (Branch α)) (branch : Branch α) : Option (Branch α) :=
  match best with
  | none => some branch
  | some best => if Scalar.le branch.area best.area then some branch else some best

end Branch

namespace LayoutElement

variable {α : Type} [Scalar α]

def contains (placed : LayoutElement α) (x y : α) : Bool :=
  Scalar.inside placed.x x (placed.x + placed.width) &&
    Scalar.inside placed.y y (placed.y + placed.height)

end LayoutElement

namespace Drawing

variable {α : Type} [Scalar α]

def rungUnder (drawing : Drawing α) (y : α) : Option (LayoutResult α) :=
  drawing.layouts.find? fun layout => Scalar.inside layout.y y (layout.y + layout.height)

/-- The innermost branch or rail whose box contains a point of a rung. -/
def innermost (drawing : Drawing α) (rungNumber : Address) (x y : α) : Option (Branch α) :=
  ((drawing.arena.forRung rungNumber).filter (·.contains x y)).foldl Branch.smaller none

def locate (drawing : Drawing α) (x y : α) : Option RailHit :=
  (drawing.rungUnder y).map fun layout =>
    match drawing.innermost layout.rungNumber x y with
    | none => ⟨layout.rungNumber, .ofNat 0, none⟩
    | some branch => ⟨layout.rungNumber, branch.branchLevel.next, some branch.id⟩

/-- The blocks on a rail, from left to right. -/
def railBlocks (drawing : Drawing α) (layout : LayoutResult α) (rail : Option BranchId) :
    List (RailBlock α) :=
  layout.elements.filterMap fun placed =>
    if placed.railId = rail then
      match placed.element.draft with
      | .instruction _ =>
          some ⟨placed.x + Scalar.half placed.width, placed.position, placed.position.next⟩
      | .branchStart id =>
          (drawing.arena.get? id).map fun nested =>
            ⟨Scalar.half (nested.startX + nested.endX), nested.startPosition,
              nested.endPosition.next⟩
      | _ => none
    else none

/-- The block nearest to `x`, the first one of several. -/
def nearestBlock (x : α) (best : RailBlock α) (blocks : List (RailBlock α)) : RailBlock α :=
  blocks.foldl
    (fun best block =>
      if Scalar.lt (Scalar.distance x block.center) (Scalar.distance x best.center) then block
      else best)
    best

def railIn (drawing : Drawing α) (rung : Address) :
    Option BranchId → Except LadderError (Option (Branch α))
  | none => .ok none
  | some id =>
      match drawing.arena.get? id with
      | some branch =>
          if branch.rungNumber = rung then .ok (some branch)
          else .error (.branchOutsideRung id rung)
      | none => .error (.branchOutsideRung id rung)

def layoutOf (drawing : Drawing α) (rung : Address) : Except LadderError (LayoutResult α) :=
  match drawing.layouts.find? (·.rungNumber == rung) with
  | some layout => .ok layout
  | none => .error (.rungNotLaidOut rung)

/-- The gap of a rail that lies at `x`; the level given must be that of the rail. -/
def findInsertionPosition (drawing : Drawing α) (x : α) (rung level : Address)
    (railId : Option BranchId) : Except LadderError Address := do
  let layout ← drawing.layoutOf rung
  let rail ← drawing.railIn rung railId
  let expected : Address :=
    match rail with
    | some branch => branch.branchLevel.next
    | none => .ofNat 0
  if level ≠ expected then throw (.wrongLevel rung level railId expected)
  match drawing.railBlocks layout (rail.map (·.id)) with
  | [] =>
      pure (match rail with
        | some branch => branch.startPosition.next
        | none => .ofNat 0)
  | first :: rest =>
      let nearest := nearestBlock x first rest
      pure (if Scalar.lt x nearest.center then nearest.before else nearest.after)

def resolve (drawing : Drawing α) (x y : α) : Except LadderError InsertionTarget :=
  match drawing.locate x y with
  | none => .error (.noRungAt (Scalar.toFloat x) (Scalar.toFloat y))
  | some hit => do
      let position ←
        drawing.findInsertionPosition x hit.rungNumber hit.branchLevel hit.branchId
      pure ⟨hit.rungNumber, hit.branchLevel, hit.branchId, position⟩

/-- The gap under a point, which may not lie left of the power rail. -/
def resolveInsertion (drawing : Drawing α) (x y : α) : Except LadderError InsertionTarget :=
  if Scalar.lt x drawing.config.leftRailX then
    .error (.leftOfPowerRail (Scalar.toFloat x) (Scalar.toFloat y)
      (Scalar.toFloat drawing.config.leftRailX))
  else drawing.resolve x y

/-- The element under a point; an instruction comes before a marker. -/
def elementAt (drawing : Drawing α) (x y : α) : Option (LayoutElement α) :=
  (drawing.rungUnder y).bind fun layout =>
    let hits := layout.elements.filter (·.contains x y)
    (hits.find? (·.kind == .instruction)).or hits.head?

end Drawing
end LadderDiagram
