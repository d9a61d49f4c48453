import LadderDiagram.Layout.Engine

/-!
# Wires

The wires of a rung that has been laid out: the two power rails, the horizontal
pieces between the elements of each rail, and a vertical piece at either side of
every branch.
-/

namespace LadderDiagram

/-- A straight wire. -/
structure WireSegment (α : Type) where
  rungNumber : Address
  x1 : α
  y1 : α
  x2 : α
  y2 : α

/-- A rail as the wires see it: its ends, its height and what stands on it. -/
structure RailRun (α : Type) where
  startX : α
  endX : α
  wireY : α
  members : List (LayoutElement α)

namespace LayoutResult

variable {α : Type} [Scalar α]

def wire (layout : LayoutResult α) (x1 y1 x2 y2 : α) : List (WireSegment α) :=
  if Scalar.eq x1 x2 && Scalar.eq y1 y2 then [] else [⟨layout.rungNumber, x1, y1, x2, y2⟩]

/-- The distance from the top of a row to its wire. -/
def wireOffset (config : LayoutConfig α) : α :=
  Scalar.round (Scalar.half config.sizes.contact.height)

def powerRails (layout : LayoutResult α) (config : LayoutConfig α) : List (WireSegment α) :=
  let bottom := layout.y + layout.height
  layout.wire config.leftRailX layout.y config.leftRailX bottom ++
    layout.wire layout.rightRailX layout.y layout.rightRailX bottom

def mainRun (layout : LayoutResult α) (config : LayoutConfig α) : RailRun α where
  startX := config.leftRailX
  endX := layout.rightRailX
  wireY := layout.y + config.rungPadding + layout.commentHeight + wireOffset config
  members := layout.elements.filter (·.railId.isNone)

/-- A rail of a branch between the markers at its ends. -/
def branchRun (layout : LayoutResult α) (config : LayoutConfig α) (branch : Branch α) :
    RailRun α where
  startX := branch.startX
  endX := branch.endX - config.sizes.branchMarker.width
  wireY := branch.branchY + wireOffset config
  members := layout.elements.filter fun placed =>
    placed.railId == some branch.id && placed.kind != .branchNext

/--
Whether the way between two neighbours on a rail leads through a branch: a rail
carries no current between the markers of a branch on it.
-/
def bridgesBranch (previous : Option (LayoutElement α)) (member : LayoutElement α) : Bool :=
  member.kind == .branchEnd &&
    previous.any fun before =>
      before.kind == .branchStart && before.branchId == member.branchId

/-- The wires along a rail from `cursor` on. -/
def wiresAlong (layout : LayoutResult α) (run : RailRun α) (cursor : α)
    (previous : Option (LayoutElement α)) : List (LayoutElement α) → List (WireSegment α)
  | [] =>
      if Scalar.lt cursor run.endX then layout.wire cursor run.wireY run.endX run.wireY
      else []
  | member :: rest =>
      let piece :=
        if !bridgesBranch previous member && Scalar.lt cursor member.x then
          layout.wire cursor run.wireY member.x run.wireY
        else []
      piece ++ layout.wiresAlong run (member.x + member.width) (some member) rest

def railWires (layout : LayoutResult α) (run : RailRun α) : List (WireSegment α) :=
  layout.wiresAlong run run.startX none run.members

def lastRail (layout : LayoutResult α) (branch : Branch α) : Branch α :=
  match branch.childIds.getLast? with
  | some id => (layout.branches.find? (·.id == id)).getD branch
  | none => branch

def dropWires (layout : LayoutResult α) (config : LayoutConfig α) (branch : Branch α) :
    List (WireSegment α) :=
  match layout.elements.find? fun placed =>
      placed.kind == .branchStart && placed.branchId == some branch.id with
  | none => []
  | some opener =>
      let top := opener.y + wireOffset config
      let bottom := (layout.lastRail branch).branchY + wireOffset config
      let right := branch.endX - config.sizes.branchMarker.width
      layout.wire branch.startX top branch.startX bottom ++
        layout.wire right top right bottom

/-- The branches that are no further rails of another one. -/
def wholeBranches (layout : LayoutResult α) : List (Branch α) :=
  let childIds := layout.branches.flatMap (·.childIds)
  layout.branches.filter fun branch => !childIds.contains branch.id

def wires (layout : LayoutResult α) (config : LayoutConfig α) : List (WireSegment α) :=
  layout.powerRails config ++
    (layout.mainRun config :: layout.branches.map (layout.branchRun config)).flatMap
      layout.railWires ++
    layout.wholeBranches.flatMap (layout.dropWires config)

end LayoutResult
end LadderDiagram
