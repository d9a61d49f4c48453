import LadderDiagram.Rung.Basic

/-!
# Editing rungs

The edits of one rung.  An edit checks its arguments against the sequence as it
stands, takes the handles that it needs, makes the new list of drafts and
annotates it; the rung gets its new sequence only when that has succeeded.  A
place is given by a gap and by the rail on which the caller expects that gap.
-/

namespace LadderDiagram

/-- A rung that is being edited, with the next free handle of its routine. -/
structure OpenRung where
  rung : Rung
  nextId : Nat

namespace OpenRung

def elements (state : OpenRung) : List Element := state.rung.elements

/-- Takes the next free handle. -/
def takeId : Action OpenRung BranchId :=
  modifyGet fun state => (.ofNat state.nextId, { state with nextId := state.nextId + 1 })

/-- Gives the rung the sequence that a list of drafts makes, if their markers pair up. -/
def commit (drafts : List Draft) : Action OpenRung Unit := do
  let elements ← .settled (annotate drafts)
  modify fun state => { state with rung := .ofElements elements state.rung.comment }

end OpenRung

namespace Rung

open OpenRung

def gapAt (elements : List Element) (position : Address) : Except LadderError Nat :=
  match position.upTo? elements.length with
  | some gap => .ok gap
  | none => .error (.noGap position elements.length)

/-- Checks that a rail exists and that a gap lies on it. -/
def checkRail (elements : List Element) (gap : Nat) (rail : Option BranchId) :
    Except LadderError Unit :=
  let actual := railAtGap elements gap
  match rail.filter (!hasRail elements ·) with
  | some unknown => .error (.unknownBranch unknown)
  | none => if actual = rail then .ok () else .error (.wrongRail gap rail actual)

/-- The drafts of a sequence with an instruction put into a gap of a rail. -/
def insertedDrafts (elements : List Element) (position : Address) (rail : Option BranchId)
    (instruction : Instruction) : Except LadderError (List Draft) := do
  let gap ← gapAt elements position
  checkRail elements gap rail
  pure ((drafts elements).insertIdx gap (.instruction instruction))

/-- The position of the marker that opens a rail, among those that `wanted` admits. -/
def markerOf? (elements : List Element) (wanted : Draft → Option BranchId)
    (id : BranchId) : Option Nat :=
  elements.findIdx? fun element => wanted element.draft == some id

/-- The handle of a start marker. -/
def startId? : Draft → Option BranchId
  | .branchStart id => some id
  | _ => none

/-- The gaps at the two ends of a run of whole branches and instructions of one rail. -/
def runBetween (elements : List Element) (first last : Address) (rail : Option BranchId) :
    Except LadderError (Nat × Nat) := do
  let start ← gapAt elements first
  let finish ← gapAt elements last
  if finish < start then throw (.reversedRange start finish)
  checkRail elements start rail
  checkRail elements finish rail
  if !isSelfContainedRun elements start finish then throw (.crossingRange start finish)
  pure (start, finish)

def openedRailEnd (rung : Rung) (position : Address) : Except LadderError Nat := do
  let (place, marker) ← rung.entryAt position
  if marker.openedRail?.isNone then throw (.notRailMarker place marker.kind)
  findRailEnd rung.elements place

/--
The place of a branch, from its start marker to just past its end marker, and
the gap to which it is to be moved, which does not lie inside it.
-/
def branchAndGap (elements : List Element) (id : BranchId) (target : Address) :
    Except LadderError (Nat × Nat × Nat) :=
  match markerOf? elements startId? id with
  | none => .error (.unknownBranch id)
  | some start => do
      let finish := (← findBranchEnd elements start) + 1
      let gap ← gapAt elements target
      if start < gap && gap < finish then throw (.insideMovedBranch id gap)
      pure (start, finish, gap)

/-- The place of a branch or of a further rail with all that stands on it. -/
def openedRange (elements : List Element) (id : BranchId) : Except LadderError (Nat × Nat) :=
  match markerOf? elements Draft.openedRail? id with
  | none => .error (.unknownBranch id)
  | some start => do
      let finish ←
        if elements[start]?.bind (startId? ∘ Element.draft) == some id then
          (· + 1) <$> findBranchEnd elements start
        else findRailEnd elements start
      pure (start, finish)

/-! ### The edits -/

/-- Puts an instruction into a gap; the answer is its element. -/
def insertInstruction (position : Address) (rail : Option BranchId) (instruction : Instruction) :
    Action OpenRung Element := do
  commit (← .ask (insertedDrafts ·.elements position rail instruction))
  let (_, element, _) ← .ask (·.rung.instructionAt position)
  pure element

/-- Moves an instruction to a gap that is counted once it has been taken out. -/
def moveInstruction (source target : Address) (rail : Option BranchId) :
    Action OpenRung Element := do
  let (place, _, instruction) ← .ask (·.rung.instructionAt source)
  let remaining ← .ask fun state => annotate ((drafts state.elements).eraseIdx place)
  commit (← .settled (insertedDrafts remaining target rail instruction))
  let (_, element, _) ← .ask (·.rung.instructionAt target)
  pure element

/-- Puts another instruction in the place of one. -/
def replaceInstruction (position : Address) (instruction : Instruction) :
    Action OpenRung Element := do
  let (place, _) ← .ask (·.rung.instructionAt position)
  commit ((drafts (← get).elements).set place (.instruction instruction))
  let (_, element, _) ← .ask (·.rung.instructionAt position)
  pure element

/-- Takes an instruction out; the answer is its old element and the instruction. -/
def takeInstruction (position : Address) : Action OpenRung (Element × Instruction) := do
  let (place, removed, instruction) ← .ask (·.rung.instructionAt position)
  commit ((drafts (← get).elements).eraseIdx place)
  pure (removed, instruction)

/-- Takes an instruction out; the answer is its old element. -/
def removeInstruction (position : Address) : Action OpenRung Element :=
  Prod.fst <$> takeInstruction position

/--
Wraps the elements between two gaps of one rail into a new branch with an empty
second rail.  The answer is the handle of the branch.
-/
def insertBranch (first last : Address) (rail : Option BranchId) : Action OpenRung BranchId := do
  let (start, finish) ← .ask (runBetween ·.elements first last rail)
  let id ← takeId
  let railId ← takeId
  let all := drafts (← get).elements
  commit (all.take start ++ .branchStart id :: (all.take finish).drop start ++
    [.branchNext railId, .branchEnd id] ++ all.drop finish)
  pure id

/--
Opens an empty rail just below the one that the marker at an address opens.
The answer is the handle of the new rail.
-/
def insertBranchLevel (position : Address) : Action OpenRung BranchId := do
  let finish ← .ask (·.rung.openedRailEnd position)
  let id ← takeId
  commit ((drafts (← get).elements).insertIdx finish (.branchNext id))
  pure id

/--
Moves a whole branch to a gap of a rail.  The gap is counted before the move
and does not lie inside the branch.
-/
def moveBranch (id : BranchId) (target : Address) (rail : Option BranchId) :
    Action OpenRung BranchId := do
  let (start, finish, gap) ← .ask (branchAndGap ·.elements id target)
  let all := drafts (← get).elements
  let moving := (all.take finish).drop start
  let others := all.take start ++ all.drop finish
  let remaining ← .settled (annotate others)
  let place := if finish ≤ gap then gap - moving.length else gap
  .settled (checkRail remaining place rail)
  commit (others.take place ++ moving ++ others.drop place)
  pure id

/--
Removes a whole branch, or one further rail with all that stands on it.  The
answer is the list of removed elements.
-/
def removeBranch (id : BranchId) : Action OpenRung (List Element) := do
  let (start, finish) ← .ask (openedRange ·.elements id)
  let elements := (← get).elements
  commit ((drafts elements).take start ++ (drafts elements).drop finish)
  pure ((elements.take finish).drop start)

/-- Deletes the instruction at an address, or the branch or rail of a marker. -/
def deleteElement (position : Address) : Action OpenRung (List Element) := do
  let element ← .ask (·.rung.elementAt position)
  match element.draft with
  | .instruction _ => (fun removed => [removed]) <$> removeInstruction position
  | .branchStart id => removeBranch id
  | .branchNext id => removeBranch id
  | .branchEnd id => removeBranch id

def setComment (comment : Option String) : Action OpenRung Unit :=
  modify fun state =>
    { state with rung := { state.rung with comment := Comment.normalize comment } }

end Rung
end LadderDiagram
