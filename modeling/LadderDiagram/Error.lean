import LadderDiagram.Address
import LadderDiagram.RungText.Diagnostic
import LadderDiagram.Sequence.Basic

/-!
# Errors

Everything that can go wrong with a rung, a routine or a place on the drawing,
by cause.  The code, the message and the details of an error are functions of
its cause.  An error is recoverable when it only says that a pointer was not
over a place where something can be put.
-/

namespace LadderDiagram

inductive ErrorCode
  | positionOutOfRange
  | branchNotFound
  | unbalancedBranch
  | invalidInsertionPoint
  | noRungAtCoordinate
  | invalidElementKind
  | invalidRungText
  deriving DecidableEq, Repr

namespace ErrorCode

def name : ErrorCode → String
  | .positionOutOfRange => "PositionOutOfRange"
  | .branchNotFound => "BranchNotFound"
  | .unbalancedBranch => "UnbalancedBranch"
  | .invalidInsertionPoint => "InvalidInsertionPoint"
  | .noRungAtCoordinate => "NoRungAtCoordinate"
  | .invalidElementKind => "InvalidElementKind"
  | .invalidRungText => "InvalidRungText"

def all : List ErrorCode :=
  [.positionOutOfRange, .branchNotFound, .unbalancedBranch, .invalidInsertionPoint,
    .noRungAtCoordinate, .invalidElementKind, .invalidRungText]

def ofName? (name : String) : Option ErrorCode := all.find? (·.name == name)

/-- Whether an interactive caller may take the error for no action at all. -/
def recoverable : ErrorCode → Bool
  | .invalidInsertionPoint => true
  | .noRungAtCoordinate => true
  | _ => false

end ErrorCode

/-- Why the markers of a sequence do not pair up. -/
inductive Imbalance
  | repeatedId (id : BranchId) (position : Address)
  | railOutsideBranch (position : Address)
  | endWithoutBranch (position : Address)
  | crossedEnd (expected actual : BranchId) (position : Address)
  | unclosed (id : BranchId)
  | unclosedStart (position : Address)
  | unclosedRail (position : Address)
  /-- A rail marker reached the layout pass with no branch open. -/
  | laidRailOutsideBranch (id : BranchId) (position : Address)
  /-- An end marker reached the layout pass with no branch open. -/
  | laidEndWithoutBranch (id : BranchId) (position : Address)
  deriving DecidableEq, Repr

inductive LadderError
  /-- No element stands at the position. -/
  | noElement (position : Address) (length : Nat)
  /-- The position is no gap of the sequence. -/
  | noGap (position : Address) (length : Nat)
  | noRung (rung : Address) (count : Nat)
  | noRungGap (rung : Address) (count : Nat)
  | rungNotLaidOut (rung : Address)
  | unknownBranch (id : BranchId)
  | branchOutsideRung (id : BranchId) (rung : Address)
  | unbalanced (cause : Imbalance)
  | reversedRange (first last : Nat)
  | crossingRange (first last : Nat)
  | insideMovedBranch (id : BranchId) (position : Nat)
  | wrongRail (position : Nat) (expected : Option BranchId) (actual : Option BranchId)
  /-- The level does not belong to the rail; its handle is none for the main rail. -/
  | wrongLevel (rung level : Address) (rail : Option BranchId) (expected : Address)
  | leftOfPowerRail (x y limit : Float)
  | noTarget
  | noRungAt (x y : Float)
  | notRailMarker (position : Nat) (kind : ElementKind)
  | notInstruction (position : Nat) (kind : ElementKind)
  | unreadableText (text : String) (faults : List RungText.Diagnostic)
  | notOneInstruction (text : String)

namespace LadderError

def code : LadderError → ErrorCode
  | .noElement .. | .noGap .. | .noRung .. | .noRungGap .. | .rungNotLaidOut .. =>
      .positionOutOfRange
  | .unknownBranch .. | .branchOutsideRung .. => .branchNotFound
  | .unbalanced .. => .unbalancedBranch
  | .reversedRange .. | .crossingRange .. | .insideMovedBranch .. | .wrongRail ..
  | .wrongLevel .. | .leftOfPowerRail .. | .noTarget => .invalidInsertionPoint
  | .noRungAt .. => .noRungAtCoordinate
  | .notRailMarker .. | .notInstruction .. => .invalidElementKind
  | .unreadableText .. | .notOneInstruction .. => .invalidRungText

def recoverable (error : LadderError) : Bool := error.code.recoverable

/-- How messages call a rail. -/
def railName : Option BranchId → String
  | none => "the main rail"
  | some id => "rail " ++ id.text

end LadderError

namespace Imbalance

def message : Imbalance → String
  | .repeatedId id position =>
      "Branch id " ++ id.text ++ " is used twice (position " ++ position.text ++ ")."
  | .railOutsideBranch position =>
      "Branch rail at position " ++ position.text ++ " is outside any branch."
  | .endWithoutBranch position =>
      "Branch end at position " ++ position.text ++ " has no open branch."
  | .crossedEnd expected actual position =>
      "Branch end " ++ actual.text ++ " at position " ++ position.text ++
        " closes open branch " ++ expected.text ++ "."
  | .unclosed id => "Branch " ++ id.text ++ " is never closed."
  | .unclosedStart position =>
      "Branch starting at position " ++ position.text ++ " is never closed."
  | .unclosedRail position =>
      "Rail opened at position " ++ position.text ++ " is never closed."
  | .laidRailOutsideBranch id position =>
      "Branch rail " ++ id.text ++ " at position " ++ position.text ++ " has no open branch."
  | .laidEndWithoutBranch id position =>
      "Branch end " ++ id.text ++ " at position " ++ position.text ++ " has no open branch."

def details : Imbalance → List (String × Json)
  | .repeatedId id position | .laidRailOutsideBranch id position
  | .laidEndWithoutBranch id position =>
      [("branchId", id.toJson), ("position", position.toJson)]
  | .railOutsideBranch position | .endWithoutBranch position
  | .unclosedStart position | .unclosedRail position => [("position", position.toJson)]
  | .crossedEnd expected actual position =>
      [("expected", expected.toJson), ("actual", actual.toJson),
        ("position", position.toJson)]
  | .unclosed id => [("branchId", id.toJson)]

end Imbalance

namespace LadderError

def message : LadderError → String
  | .noElement position length =>
      "Position " ++ position.text ++ " is outside 0.." ++
        Decimal.wholeText (length - 1) ++ "."
  | .noGap position length =>
      "Position " ++ position.text ++ " is outside 0.." ++ toString length ++ "."
  | .noRung rung count =>
      "Rung " ++ rung.text ++ " does not exist (routine has " ++ toString count ++ ")."
  | .noRungGap rung count =>
      "Cannot insert a rung at " ++ rung.text ++ " (routine has " ++
        toString count ++ ")."
  | .rungNotLaidOut rung => "Rung " ++ rung.text ++ " is not laid out."
  | .unknownBranch id => "Branch " ++ id.text ++ " does not exist in this rung."
  | .branchOutsideRung id rung =>
      "Branch " ++ id.text ++ " is not part of rung " ++ rung.text ++ "."
  | .unbalanced cause => cause.message
  | .reversedRange first last =>
      "Branch start " ++ toString first ++ " follows its end " ++ toString last ++ "."
  | .crossingRange first last =>
      "Positions " ++ toString first ++ ".." ++ toString last ++
        " cut across an existing branch."
  | .insideMovedBranch id position =>
      "Position " ++ toString position ++ " lies inside branch " ++
        id.text ++ "."
  | .wrongRail position expected actual =>
      "Position " ++ toString position ++ " is on " ++
        railName actual ++ ", not " ++ railName expected ++ "."
  | .wrongLevel _ level rail expected =>
      let railText :=
        match rail with
        | some id => "branch " ++ id.text
        | none => "the main rail"
      "Branch level " ++ level.text ++ " does not match " ++ railText ++ " (level " ++
        expected.text ++ ")."
  | .leftOfPowerRail x _ limit =>
      "x " ++ Decimal.numberText x ++ " is left of the power rail at " ++
        Decimal.numberText limit ++ "."
  | .noTarget => "Give either rungNumber and position, or x and y."
  | .noRungAt x y =>
      "No rung at (" ++ Decimal.numberText x ++ ", " ++ Decimal.numberText y ++ ")."
  | .notRailMarker position _ =>
      "Position " ++ toString position ++ " is not a branch start or rail marker."
  | .notInstruction position kind =>
      "Position " ++ toString position ++ " holds a " ++ kind.name ++
        " marker, not an instruction."
  | .unreadableText text faults =>
      let first :=
        match faults with
        | fault :: _ => fault.message
        | [] => "unknown error"
      "Cannot parse rung text '" ++ text ++ "': " ++ first
  | .notOneInstruction text => "Expected a single instruction, got '" ++ text ++ "'."

/-- The details of an error, for callers that do not read messages. -/
def details : LadderError → Option Json
  | .noElement position length | .noGap position length =>
      some (.obj [("position", position.toJson), ("length", .ofNat length)])
  | .noRung rung count =>
      some (.obj [("rungNumber", rung.toJson), ("rungCount", .ofNat count)])
  | .noRungGap rung _ | .rungNotLaidOut rung => some (.obj [("rungNumber", rung.toJson)])
  | .unknownBranch id => some (.obj [("branchId", id.toJson)])
  | .branchOutsideRung id rung =>
      some (.obj [("branchId", id.toJson), ("rungNumber", rung.toJson)])
  | .unbalanced cause => some (.obj cause.details)
  | .reversedRange first last | .crossingRange first last =>
      some (.obj [("start", .ofNat first), ("end", .ofNat last)])
  | .insideMovedBranch id position =>
      some (.obj [("branchId", id.toJson), ("position", .ofNat position)])
  | .wrongRail position expected actual =>
      some (.obj [("position", .ofNat position),
        ("expected", .orNull (expected.map Address.toJson)),
        ("actual", .orNull (actual.map Address.toJson))])
  | .wrongLevel rung level rail _ =>
      some (.obj [("rungNumber", rung.toJson), ("branchLevel", level.toJson),
        ("branchId", .orNull (rail.map Address.toJson))])
  | .leftOfPowerRail x y _ | .noRungAt x y => some (.obj [("x", .num x), ("y", .num y)])
  | .noTarget | .notOneInstruction _ => none
  | .notRailMarker position kind | .notInstruction position kind =>
      some (.obj [("position", .ofNat position), ("kind", .str kind.name)])
  | .unreadableText _ faults =>
      some (.obj [("diagnostics", .ofList RungText.Diagnostic.toJson faults)])

end LadderError
end LadderDiagram
