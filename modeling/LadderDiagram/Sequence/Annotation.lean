import LadderDiagram.Error

/-!
# Annotation

One walk from left to right gives every draft its place: position, nesting
level, rail and outermost branch.  The walk keeps the branches that are open,
each with the rail that is current in it, and the handles that markers have
taken so far.  It fails at the first marker that does not pair up.
-/

namespace LadderDiagram

/-- A branch that is open during the walk, with its current rail. -/
structure OpenFrame where
  branchId : BranchId
  railId : BranchId
  deriving DecidableEq, Repr

/-- What the walk knows between two drafts; the innermost open branch is first. -/
structure WalkState where
  position : Nat
  frames : List OpenFrame
  claimed : List BranchId
  deriving DecidableEq, Repr

namespace WalkState

/-- The walk before the first draft. -/
def start : WalkState := ⟨0, [], []⟩

def railId (state : WalkState) : Option BranchId := state.frames.head?.map (·.railId)

/-- The outermost open branch. -/
def rootId (state : WalkState) : Option BranchId := state.frames.getLast?.map (·.branchId)

/-- Takes a handle for a marker, once only. -/
def claim (state : WalkState) (id : BranchId) : Except LadderError WalkState :=
  if state.claimed.contains id then
    .error (.unbalanced (.repeatedId id (.ofNat state.position)))
  else .ok { state with claimed := id :: state.claimed }

def instructionElement (state : WalkState) (instruction : Instruction) : Element where
  draft := .instruction instruction
  position := .ofNat state.position
  branchLevel := .ofNat state.frames.length
  railId := state.railId
  rootBranchId := state.rootId
  holderId := state.railId

/-- The start marker here, which stands on the rail around its branch. -/
def startElement (state : WalkState) (id : BranchId) : Element where
  draft := .branchStart id
  position := .ofNat state.position
  branchLevel := .ofNat state.frames.length
  railId := state.railId
  rootBranchId := some (state.rootId.getD id)
  holderId := none

/-- The next marker here, which stands on the rail that it opens. -/
def nextElement (state : WalkState) (id : BranchId) : Element where
  draft := .branchNext id
  position := .ofNat state.position
  branchLevel := .ofNat state.frames.length
  railId := some id
  rootBranchId := state.rootId
  holderId := none

/-- The end marker here, which stands on the rail around its branch. -/
def endElement (state : WalkState) (id : BranchId) (outer : List OpenFrame) : Element where
  draft := .branchEnd id
  position := .ofNat state.position
  branchLevel := .ofNat outer.length
  railId := outer.head?.map (·.railId)
  rootBranchId := some ((outer.getLast?.map (·.branchId)).getD id)
  holderId := none

def step (state : WalkState) : Draft → Except LadderError (Element × WalkState)
  | .instruction instruction =>
      .ok (state.instructionElement instruction, { state with position := state.position + 1 })
  | .branchStart id =>
      match state.claim id with
      | .error error => .error error
      | .ok claimed =>
          .ok (state.startElement id,
            { claimed with position := state.position + 1, frames := ⟨id, id⟩ :: state.frames })
  | .branchNext id =>
      match state.frames with
      | [] => .error (.unbalanced (.railOutsideBranch (.ofNat state.position)))
      | frame :: outer =>
          match state.claim id with
          | .error error => .error error
          | .ok claimed =>
              .ok (state.nextElement id,
                { claimed with
                  position := state.position + 1
                  frames := { frame with railId := id } :: outer })
  | .branchEnd id =>
      match state.frames with
      | [] => .error (.unbalanced (.endWithoutBranch (.ofNat state.position)))
      | frame :: outer =>
          if frame.branchId = id then
            .ok (state.endElement id outer,
              { state with position := state.position + 1, frames := outer })
          else .error (.unbalanced (.crossedEnd frame.branchId id (.ofNat state.position)))

/-- The walk over a list of drafts, which must leave no branch open. -/
def walk (state : WalkState) : List Draft → Except LadderError (List Element)
  | [] =>
      match state.frames with
      | [] => .ok []
      | frame :: _ => .error (.unbalanced (.unclosed frame.branchId))
  | draft :: rest =>
      match state.step draft with
      | .error error => .error error
      | .ok (element, next) =>
          match next.walk rest with
          | .error error => .error error
          | .ok elements => .ok (element :: elements)

end WalkState

/-- The sequence of a list of drafts, if their markers pair up. -/
def annotate (drafts : List Draft) : Except LadderError (List Element) :=
  WalkState.start.walk drafts

end LadderDiagram
