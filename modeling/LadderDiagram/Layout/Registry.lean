import LadderDiagram.Layout.Engine

/-!
# Registries

A pass over branches can be driven marker by marker with handles of the driver's
own choice.  The handles from zero up to a bound are the places of the arena; a
record with any other handle is kept aside.  It is found by its handle until
another record takes that, whatever becomes of its rung, and no list shows it.

An engine drives one registry over all the rungs that it lays out.  A pass that
fails is left in the middle and aborted.
-/

namespace LadderDiagram

variable {α : Type}

/-- The number of places of an arena. -/
def placeCount : Nat := Nat.pow 2 32 - 1

/-- Whether the handle of a record is a place of an arena. -/
def Branch.hasPlace (branch : Branch α) : Bool := branch.id.toNat?.any (· < placeCount)

/-- A pass with the records that its arena has no places for. -/
structure Registry (α : Type) where
  /-- The pass, whose arena holds records with places only. -/
  pass : BranchPass α
  /-- The other records, the latest first. -/
  aside : List (Branch α)

namespace Registry

/-- A registry without records. -/
def empty : Registry α := ⟨.idle .empty, []⟩

/-- The record with a handle. -/
def get? (registry : Registry α) (id : BranchId) : Option (Branch α) :=
  (registry.pass.arena.get? id).or (registry.aside.find? (·.id == id))

def onArena (registry : Registry α) (change : Arena α → Arena α) : Registry α :=
  { registry with pass := { registry.pass with arena := change registry.pass.arena } }

def replaceRung (registry : Registry α) (rungNumber : Address) (branches : List (Branch α)) :
    Registry α :=
  let (placed, others) := branches.partition Branch.hasPlace
  { registry.onArena (·.replaceRung rungNumber placed) with
    aside := others.reverse ++ registry.aside }

/-- Ends the pass without a trace. -/
def abort (registry : Registry α) : Registry α := { registry with pass := registry.pass.abort }

/-- Ends the pass; its records become those of its rung. -/
def commit (registry : Registry α) : Except LadderError (List (Branch α) × Registry α) :=
  match registry.pass.commit with
  | .error error => .error error
  | .ok (records, _) =>
      .ok (records,
        match registry.pass.rungNumber with
        | some rungNumber => registry.abort.replaceRung rungNumber records
        | none => registry.abort)

end Registry

/-! ### Engines -/

/-- A pass behind a draft that it refuses: an end marker has taken the innermost branch off. -/
def BranchPass.refusing (pass : BranchPass α) : Draft → BranchPass α
  | .branchEnd _ => { pass with contexts := pass.contexts.tail }
  | _ => pass

/--
Places elements one after the other.  Where one is refused the walk stops, and the state is
left as the element has left it.
-/
def LayoutState.walk [Scalar α] (config : LayoutConfig α) (input : RungInput α)
    (state : LayoutState α) : List Element → Except LadderError Unit × LayoutState α
  | [] => (.ok (), state)
  | element :: rest =>
      match state.step config input element with
      | .ok next => next.walk config input rest
      | .error error => (.error error, { state with pass := state.pass.refusing element.draft })

/-- What lays out one rung after the other: a configuration and the registry of all its passes. -/
structure LayoutEngine (α : Type) where
  config : LayoutConfig α
  registry : Registry α

namespace LayoutEngine

variable [Scalar α]

/-- An engine that has not laid out anything. -/
def fresh (config : LayoutConfig α) : LayoutEngine α := ⟨config, .empty⟩

/-- The layout of a rung before its first element, whatever an earlier pass has left open. -/
def start (engine : LayoutEngine α) (input : RungInput α) : LayoutState α :=
  { LayoutState.start engine.config engine.registry.pass.arena input with
    pass := engine.registry.pass.start input.rungNumber }

/-- The layout of a rung, with the engine after it. -/
def layout (engine : LayoutEngine α) (input : RungInput α) :
    Except LadderError (LayoutResult α) × LayoutEngine α :=
  let (outcome, state) := (engine.start input).walk engine.config input input.elements
  let walked : Registry α := { engine.registry with pass := state.pass }
  let aborted : LayoutEngine α := { engine with registry := walked.abort }
  match outcome with
  | .error error => (.error error, aborted)
  | .ok () =>
      match walked.commit with
      | .error error => (.error error, aborted)
      | .ok (branches, committed) =>
          (.ok (state.result engine.config input branches),
            { engine with registry := committed })

end LayoutEngine
end LadderDiagram
