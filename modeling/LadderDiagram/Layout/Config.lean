import LadderDiagram.Layout.Scalar
import LadderDiagram.Instruction

/-!
# Layout configuration

The measures of a drawing: ten distances and the sizes of four kinds of
elements.  Every measure is a whole number; some have to be positive, the others
may be zero.  Beyond that, a rail has to leave room for a branch marker, and the
rows have to be as far apart as the tallest element.
-/

namespace LadderDiagram

/-- The width and height of an element. -/
structure Size (α : Type) where
  width : α
  height : α

/-- The sizes of the kinds of elements. -/
structure Sizes (α : Type) where
  contact : Size α
  coil : Size α
  block : Size α
  branchMarker : Size α

/-- The measures of a drawing. -/
structure LayoutConfig (α : Type) where
  leftRailX : α
  rightRailMinX : α
  /-- The distance from a rail's origin to its first element. -/
  railOffset : α
  elementSpacing : α
  minimumWireLength : α
  /-- The distance between rows. -/
  branchSpacing : α
  rungPadding : α
  commentLineHeight : α
  routineOriginY : α
  /-- The distance between rungs. -/
  rungGap : α
  sizes : Sizes α

/-- The distances of a configuration, in the order in which they are checked. -/
inductive Measure
  | leftRailX
  | rightRailMinX
  | railOffset
  | elementSpacing
  | minimumWireLength
  | branchSpacing
  | rungPadding
  | commentLineHeight
  | routineOriginY
  | rungGap
  deriving DecidableEq, Repr

namespace Measure

def all : List Measure :=
  [leftRailX, rightRailMinX, railOffset, elementSpacing, minimumWireLength,
    branchSpacing, rungPadding, commentLineHeight, routineOriginY, rungGap]

def key : Measure → String
  | leftRailX => "leftRailX"
  | rightRailMinX => "rightRailMinX"
  | railOffset => "railOffset"
  | elementSpacing => "elementSpacing"
  | minimumWireLength => "minimumWireLength"
  | branchSpacing => "branchSpacing"
  | rungPadding => "rungPadding"
  | commentLineHeight => "commentLineHeight"
  | routineOriginY => "routineOriginY"
  | rungGap => "rungGap"

/-- The environment variable that sets a measure. -/
def variableName : Measure → String
  | leftRailX => "LADDER_LEFT_RAIL_X"
  | rightRailMinX => "LADDER_RIGHT_RAIL_MIN_X"
  | railOffset => "LADDER_RAIL_OFFSET"
  | elementSpacing => "LADDER_ELEMENT_SPACING"
  | minimumWireLength => "LADDER_MIN_WIRE_LENGTH"
  | branchSpacing => "LADDER_BRANCH_SPACING"
  | rungPadding => "LADDER_RUNG_PADDING"
  | commentLineHeight => "LADDER_COMMENT_LINE_HEIGHT"
  | routineOriginY => "LADDER_ORIGIN_Y"
  | rungGap => "LADDER_RUNG_GAP"

def isPositive : Measure → Bool
  | railOffset => true
  | branchSpacing => true
  | _ => false

end Measure

namespace LayoutConfig

variable {α : Type}

def measure (config : LayoutConfig α) : Measure → α
  | .leftRailX => config.leftRailX
  | .rightRailMinX => config.rightRailMinX
  | .railOffset => config.railOffset
  | .elementSpacing => config.elementSpacing
  | .minimumWireLength => config.minimumWireLength
  | .branchSpacing => config.branchSpacing
  | .rungPadding => config.rungPadding
  | .commentLineHeight => config.commentLineHeight
  | .routineOriginY => config.routineOriginY
  | .rungGap => config.rungGap

def sizeOf (config : LayoutConfig α) : Category → Size α
  | .contact => config.sizes.contact
  | .coil => config.sizes.coil
  | .block => config.sizes.block

variable [Scalar α]

/-- The configuration that is used unless another one is given. -/
def standard : LayoutConfig α where
  leftRailX := Scalar.ofNat 40
  rightRailMinX := Scalar.ofNat 600
  railOffset := Scalar.ofNat 20
  elementSpacing := Scalar.ofNat 10
  minimumWireLength := Scalar.ofNat 10
  branchSpacing := Scalar.ofNat 60
  rungPadding := Scalar.ofNat 10
  commentLineHeight := Scalar.ofNat 15
  routineOriginY := Scalar.ofNat 50
  rungGap := Scalar.ofNat 20
  sizes :=
    { contact := ⟨Scalar.ofNat 40, Scalar.ofNat 30⟩
      coil := ⟨Scalar.ofNat 40, Scalar.ofNat 30⟩
      block := ⟨Scalar.ofNat 80, Scalar.ofNat 40⟩
      branchMarker := ⟨Scalar.ofNat 10, Scalar.ofNat 30⟩ }

/-- The height of the tallest element. -/
def tallest (config : LayoutConfig α) : α :=
  Scalar.max (Scalar.max (Scalar.max config.sizes.contact.height config.sizes.coil.height)
    config.sizes.block.height) config.sizes.branchMarker.height

def leavesMarkerRoom (config : LayoutConfig α) : Bool :=
  Scalar.le config.sizes.branchMarker.width config.railOffset

/-- Whether the rows are far enough apart for every element. -/
def fitsTallest (config : LayoutConfig α) : Bool :=
  Scalar.le config.tallest config.branchSpacing

/-- Whether a number is a whole one that a measure may have. -/
def admits (positive : Bool) (value : α) : Bool :=
  Scalar.isWhole value &&
    if positive then Scalar.lt (Scalar.ofNat 0) value else Scalar.le (Scalar.ofNat 0) value

/-- Whether a size is a whole positive width and height. -/
def admitsSize (size : Size α) : Bool := admits true size.width && admits true size.height

/-- Whether a configuration keeps all rules. -/
def isValid (config : LayoutConfig α) : Bool :=
  Measure.all.all (fun measure => admits measure.isPositive (config.measure measure)) &&
    admitsSize config.sizes.contact && admitsSize config.sizes.coil &&
    admitsSize config.sizes.block && admitsSize config.sizes.branchMarker &&
    config.leavesMarkerRoom && config.fitsTallest

end LayoutConfig
end LadderDiagram
