import LadderDiagram.Layout.Engine
import LadderDiagram.Routine

/-!
# Drawings

A drawing is a routine with the layout of each of its rungs.  Rungs stand below
one another, each under the bottom of the one before it.  After a change only
the rungs that were changed are laid out again, and the ones below as long as
their place keeps moving.  Each rung is laid out on the drawing as the rungs before it
have left it, so a pass that fails leaves the drawing half done.
-/

namespace LadderDiagram

/-- The strip of the drawing that a rung takes. -/
structure Band (α : Type) where
  y : α
  height : α

/-- A routine with its layouts. -/
structure Drawing (α : Type) where
  config : LayoutConfig α
  routine : Routine
  /-- The bands of the rungs; a rung that has not been laid out has none. -/
  bands : List (Option (Band α))
  layouts : List (LayoutResult α)
  arena : Arena α
  /-- The rungs laid out by the last change, in the order of their layout. -/
  relaid : List Nat

structure Extent (α : Type) where
  rungCount : Nat
  width : α
  height : α

namespace Drawing

variable {α : Type}

/-- The drawing of a routine before anything has been laid out. -/
def blank (config : LayoutConfig α) (routine : Routine) : Drawing α where
  config := config
  routine := routine
  bands := routine.rungs.map fun _ => none
  layouts := []
  arena := .empty
  relaid := []

def layoutAt (drawing : Drawing α) (rung : Address) : Except LadderError (LayoutResult α) :=
  match rung.toNat?.bind fun index => drawing.layouts[index]? with
  | some layout => .ok layout
  | none => .error (.rungNotLaidOut rung)

variable [Scalar α]

/-- The height at which a rung begins, given the band of the rung before it. -/
def bandStart (drawing : Drawing α) : Nat → α
  | 0 => drawing.config.routineOriginY
  | before + 1 =>
      match drawing.bands[before]? with
      | some (some band) => band.y + band.height + drawing.config.rungGap
      | _ => drawing.config.routineOriginY

/-- A list with one entry replaced or, just past its end, added. -/
def putAt {β : Type} (items : List β) (index : Nat) (item : β) : List β :=
  if index < items.length then items.set index item else items ++ [item]

/-- Whether a rung takes another band than before. -/
def hasMoved (before : Option (Band α)) (y height : α) : Bool :=
  !before.any fun band => Scalar.eq y band.y && Scalar.eq height band.height

/-- What the layout of a rung with a number depends on when it begins at a height. -/
def rungInput (index : Nat) (y : α) (rung : Rung) : RungInput α :=
  ⟨.ofNat index, y, rung.elements, Scalar.ofNat rung.commentLines⟩

/-- Lays out one rung; the answer says whether its band is another one than before. -/
def relayRung (index : Nat) (rung : Rung) : Action (Drawing α) Bool := do
  let drawing ← get
  let y := drawing.bandStart index
  let (layout, arena) ←
    .settled (layoutRung drawing.config drawing.arena (rungInput index y rung))
  set { drawing with
    bands := drawing.bands.set index (some ⟨y, layout.height⟩)
    layouts := putAt drawing.layouts index layout
    arena := arena }
  pure (hasMoved (drawing.bands[index]?.join) y layout.height)

/--
Lays out again, from the rung numbered `index` on, the rungs that are dirty and
those whose band has slid because the rung before them moved.  The answer is the
list of their numbers.
-/
def relayFrom (dirty : Nat → Bool) (index : Nat) (slid : Bool) :
    List Rung → Action (Drawing α) (List Nat)
  | [] => pure []
  | rung :: rest =>
      if dirty index || slid then do
        let moved ← relayRung index rung
        let others ← relayFrom dirty (index + 1) moved rest
        pure (index :: others)
      else relayFrom dirty (index + 1) false rest

/-- Lays out the dirty rungs of a drawing again, and those that slide with them. -/
def relay (dirty : Nat → Bool) : Action (Drawing α) Unit := do
  modify fun drawing =>
    { drawing with layouts := drawing.layouts.take drawing.routine.size }
  let relaid ← relayFrom dirty 0 false (← get).routine.rungs
  modify fun drawing => { drawing with relaid := relaid }

def relayAll : Action (Drawing α) Unit := do
  modify fun drawing => { drawing with arena := .empty, layouts := [] }
  relay fun _ => true

def extent (drawing : Drawing α) : Extent α where
  rungCount := drawing.layouts.length
  width :=
    drawing.layouts.foldl (fun width layout => Scalar.max width layout.rightRailX)
      drawing.config.rightRailMinX + drawing.config.leftRailX
  height :=
    match drawing.layouts.getLast? with
    | some last => last.y + last.height + drawing.config.rungGap
    | none => drawing.config.routineOriginY

end Drawing
end LadderDiagram
