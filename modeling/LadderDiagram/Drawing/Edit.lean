import LadderDiagram.Drawing.Basic

/-!
# Editing drawings

The edits of a routine as they are made on its drawing.  An edit changes the
routine first and lays out after that what has changed.  A rung whose new layout
fails gets back what it was before, and so do both rungs of a move that fails
between them; a failed move also lays both rungs out again.
-/

namespace LadderDiagram

structure ElementAddress where
  rung : Address
  position : Address

/-- A place where an element can be dropped. -/
structure DropTarget where
  rung : Address
  position : Address
  rail : Option BranchId
  /-- The level at which the caller saw the rail; it is only reported. -/
  level : Option Address

/-- One edit of a routine. -/
inductive Edit
  | insertInstruction (rung position : Address) (rail : Option BranchId)
      (instruction : Instruction)
  | replaceInstruction (rung position : Address) (instruction : Instruction)
  /-- Deletes an instruction, or the whole branch or rail to which a marker belongs. -/
  | deleteElement (rung position : Address)
  | insertBranch (rung first last : Address) (rail : Option BranchId)
  | insertBranchLevel (rung position : Address)
  | moveBranch (rung : Address) (id : BranchId) (target : Address) (rail : Option BranchId)
  | removeBranch (rung : Address) (id : BranchId)
  /-- Moves an instruction to a gap that is counted before the move. -/
  | moveElement (source : ElementAddress) (target : DropTarget)
  | setComment (rung : Address) (comment : Option String)
  /-- Adds a rung before the one with a number, at the end if none is given. -/
  | addRung (source : RungSource) (place : Option Address)
  | removeRung (rung : Address)

/-- What an edit answers: a placed element, the elements removed, a handle or a number. -/
abbrev Edit.Answer : Edit → Type
  | .insertInstruction .. => Element
  | .replaceInstruction .. => Element
  | .deleteElement .. => List Element
  | .insertBranch .. => BranchId
  | .insertBranchLevel .. => BranchId
  | .moveBranch .. => BranchId
  | .removeBranch .. => List Element
  | .moveElement .. => Element
  | .setComment .. => Unit
  | .addRung .. => Nat
  | .removeRung .. => Unit

namespace Drawing

variable {α β : Type} [Scalar α]

def onRoutine (action : Action Routine β) : Action (Drawing α) β :=
  .within (·.routine) (fun routine drawing => { drawing with routine := routine }) action

/-- Gives the rung with a number back what it was before. -/
def restoreRung (index : Nat) (before : Rung) : Action (Drawing α) Unit :=
  onRoutine (Routine.restoreRung index before)

/-- Edits one rung and lays it out. -/
def editRung (rung : Address) (edit : Action OpenRung β) : Action (Drawing α) β := do
  let (index, before) ← .ask (·.routine.rungAt rung)
  let answer ← onRoutine (Routine.editRung rung edit)
  .undoing (restoreRung index before) (relay (· == index))
  pure answer

/-- The number that two addresses of rungs have in common. -/
def sameRung? (first second : Address) : Bool :=
  match first, second with
  | .whole own, .whole other => own == other
  | _, _ => false

def moveWithin (source : ElementAddress) (target : DropTarget) : Action (Drawing α) Element :=
  let place :=
    if target.position.isAfter source.position then target.position.previous
    else target.position
  editRung source.rung (Rung.moveInstruction source.position place target.rail)

/-- Takes an instruction from one rung and puts it into another one. -/
def carryOver (source : ElementAddress) (target : DropTarget) : Action (Drawing α) Element := do
  let (_, instruction) ←
    onRoutine (Routine.editRung source.rung (Rung.takeInstruction source.position))
  onRoutine (Routine.editRung target.rung
    (Rung.insertInstruction target.position target.rail instruction))

/--
Moves an instruction from one rung to another one.  When that fails, both rungs
are restored and laid out again as they were.
-/
def moveAcross (source : ElementAddress) (target : DropTarget) : Action (Drawing α) Element := do
  let (origin, giver) ← .ask (·.routine.rungAt source.rung)
  let (goal, taker) ← .ask (·.routine.rungAt target.rung)
  let relayBoth : Action (Drawing α) Unit := relay fun index => index == origin || index == goal
  .undoing
    (do
      restoreRung origin giver
      restoreRung goal taker
      relayBoth)
    (do
      let moved ← carryOver source target
      relayBoth
      pure moved)

def moveElement (source : ElementAddress) (target : DropTarget) : Action (Drawing α) Element :=
  if sameRung? source.rung target.rung then moveWithin source target
  else moveAcross source target

/-- The number that a rung has once another one has been added before the one numbered `index`. -/
def openNumber (index : Nat) (number : Address) : Option Address :=
  some (if (Address.ofNat index).isUpTo number then number.next else number)

/-- The number that a rung has once the one numbered `index` has been removed. -/
def closeNumber (index : Nat) (number : Address) : Option Address :=
  if number = Address.ofNat index then none
  else some (if number.isAfter (.ofNat index) then number.previous else number)

/-- Adds a rung and lays out all rungs from it on. -/
def addRung (source : RungSource) (place : Option Address) : Action (Drawing α) Nat := do
  let last := Address.ofNat (← get).routine.size
  let index ← onRoutine (Routine.insertRung source (place.getD last))
  modify fun drawing =>
    { drawing with
      bands := drawing.bands.insertIdx index none
      arena := drawing.arena.renumber (openNumber index) }
  relay (index ≤ ·)
  pure index

/-- Removes a rung and lays out all rungs after it. -/
def removeRung (rung : Address) : Action (Drawing α) Unit := do
  let index ← onRoutine (Routine.removeRung rung)
  modify fun drawing =>
    { drawing with
      bands := drawing.bands.eraseIdx index
      layouts := drawing.layouts.eraseIdx index
      arena := drawing.arena.renumber (closeNumber index) }
  relay (index ≤ ·)

def act : (edit : Edit) → Action (Drawing α) edit.Answer
  | .insertInstruction rung position rail instruction =>
      editRung rung (Rung.insertInstruction position rail instruction)
  | .replaceInstruction rung position instruction =>
      editRung rung (Rung.replaceInstruction position instruction)
  | .deleteElement rung position => editRung rung (Rung.deleteElement position)
  | .insertBranch rung first last rail => editRung rung (Rung.insertBranch first last rail)
  | .insertBranchLevel rung position => editRung rung (Rung.insertBranchLevel position)
  | .moveBranch rung id target rail => editRung rung (Rung.moveBranch id target rail)
  | .removeBranch rung id => editRung rung (Rung.removeBranch id)
  | .moveElement source target => moveElement source target
  | .setComment rung comment => editRung rung (Rung.setComment comment)
  | .addRung source place => addRung source place
  | .removeRung rung => removeRung rung

/-- Makes an edit; a failed edit leaves what it has done. -/
def apply (drawing : Drawing α) (edit : Edit) : Except LadderError edit.Answer × Drawing α :=
  (act edit).on drawing

/-- The drawing of a routine with every rung laid out. -/
def ofRoutine (config : LayoutConfig α) (routine : Routine) :
    Except LadderError Unit × Drawing α :=
  relayAll.on (blank config routine)

end Drawing
end LadderDiagram
