import LadderDiagram.Rung.Edit

/-!
# Routines

A routine is a named list of rungs.  It hands out the handles of all branches
of its rungs, counted from zero and never used twice.
-/

namespace LadderDiagram

/-- A routine as it is written in a file or a request. -/
structure RoutineSource where
  name : Option String
  rungs : List RungSource

/-- A named list of rungs with the next free branch handle. -/
structure Routine where
  name : String
  rungs : List Rung
  nextId : Nat

namespace Routine

def defaultName : String := "MainRoutine"

def empty : Routine := ⟨defaultName, [], 0⟩

def size (routine : Routine) : Nat := routine.rungs.length

def rungAt (routine : Routine) (rung : Address) : Except LadderError (Nat × Rung) :=
  match rung.toNat?.bind fun index => routine.rungs[index]?.map (index, ·) with
  | some found => .ok found
  | none => .error (.noRung rung routine.size)

/-- The routine with another rung in place of the one with a number. -/
def setRung (routine : Routine) (index : Nat) (rung : Rung) : Routine :=
  { routine with rungs := routine.rungs.set index rung }

/-- The place before which a new rung is put, at most the number of rungs. -/
def gapAt (routine : Routine) (place : Address) : Except LadderError Nat :=
  match place.upTo? routine.size with
  | some index => .ok index
  | none => .error (.noRungGap place routine.size)

/-- A rung that a source writes, with handles of this routine; it is in the routine only later. -/
def makeRung (source : RungSource) : Action Routine Rung :=
  .within (·.nextId) (fun nextId routine => { routine with nextId := nextId })
    (Rung.ofSource source)

/-- Puts a new rung before the one with a number, or at the end; the answer is its number. -/
def insertRung (source : RungSource) (place : Address) : Action Routine Nat := do
  let index ← .ask (·.gapAt place)
  let rung ← makeRung source
  modify fun routine => { routine with rungs := routine.rungs.insertIdx index rung }
  pure index

/-- Removes a rung; the answer is its number. -/
def removeRung (rung : Address) : Action Routine Nat := do
  let (index, _) ← .ask (·.rungAt rung)
  modify fun routine => { routine with rungs := routine.rungs.eraseIdx index }
  pure index

def editRung {β : Type} (rung : Address) (edit : Action OpenRung β) : Action Routine β := do
  let (index, found) ← .ask (·.rungAt rung)
  .within (fun routine => ⟨found, routine.nextId⟩)
    (fun state routine => { routine.setRung index state.rung with nextId := state.nextId }) edit

/-- Gives the rung with a number back what it was before. -/
def restoreRung (index : Nat) (before : Rung) : Action Routine Unit :=
  modify (·.setRung index before.restored)

/-- Reads rungs one after the other behind those of a routine. -/
def appendRungs : List RungSource → Action Routine Unit
  | [] => pure ()
  | source :: rest => do
      let _ ← insertRung source (.ofNat (← get).size)
      appendRungs rest

def ofSource (source : RoutineSource) : Except LadderError Routine :=
  let named : Routine := { empty with name := source.name.getD defaultName }
  match (appendRungs source.rungs).on named with
  | (.ok _, routine) => .ok routine
  | (.error error, _) => .error error

end Routine

structure RungSnapshot where
  number : Nat
  text : String
  comment : Option String
  deriving DecidableEq, Repr

structure RoutineSnapshot where
  name : String
  rungs : List RungSnapshot
  deriving DecidableEq, Repr

namespace Routine

/-- The routine as it is saved: texts and comments, numbered from zero. -/
def snapshot (routine : Routine) : RoutineSnapshot where
  name := routine.name
  rungs := routine.rungs.mapIdx fun number rung => ⟨number, rung.text, rung.comment⟩

end Routine

def RoutineSnapshot.source (saved : RoutineSnapshot) : RoutineSource where
  name := some saved.name
  rungs := saved.rungs.map fun rung => ⟨some rung.text, rung.comment⟩

end LadderDiagram
