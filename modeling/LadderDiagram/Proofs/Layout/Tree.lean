import LadderDiagram.Proofs.RungText.Sequence

/-!
# Sequences as trees of rails

A sequence whose markers pair up is a tree: a rail holds instructions and branches, and a
branch holds its first rail and further ones.  Unlike the tree that a text is read as,
this one keeps the handles, so the annotation of the sequence can be computed on it: what
an element knows of the branches around it depends on the rail on which it stands.
-/

namespace LadderDiagram

mutual

/-- A rail with what stands on it, from left to right. -/
inductive RailTree
  | nil
  | instruction (content : Instruction) (rest : RailTree)
  | branch (id : BranchId) (first : RailTree) (further : FurtherRails) (rest : RailTree)

/-- The rails of a branch below its first one. -/
inductive FurtherRails
  | nil
  | rail (id : BranchId) (own : RailTree) (others : FurtherRails)

end

mutual

def RailTree.drafts : RailTree → List Draft
  | .nil => []
  | .instruction content rest => .instruction content :: rest.drafts
  | .branch id first further rest =>
      .branchStart id :: (first.drafts ++ (further.drafts ++ .branchEnd id :: rest.drafts))

def FurtherRails.drafts : FurtherRails → List Draft
  | .nil => []
  | .rail id own others => .branchNext id :: (own.drafts ++ others.drafts)

end

namespace RungText

mutual

theorem IsTreeOf.exists_railTree {drafts : List Draft} {nodes : List Node} :
    IsTreeOf drafts nodes → ∃ tree : RailTree, tree.drafts = drafts
  | .nil => ⟨.nil, rfl⟩
  | .instruction content others => by
      obtain ⟨rest, rfl⟩ := others.exists_railTree
      exact ⟨.instruction content rest, rfl⟩
  | .branch id rails others => by
      obtain ⟨first, further, rfl⟩ := rails.exists_furtherRails
      obtain ⟨rest, rfl⟩ := others.exists_railTree
      refine ⟨.branch id first further rest, ?_⟩
      rw [RailTree.drafts, List.append_assoc]

theorem AreRailsOf.exists_furtherRails {drafts : List Draft} {rails : List (List Node)} :
    AreRailsOf drafts rails →
      ∃ (first : RailTree) (further : FurtherRails), first.drafts ++ further.drafts = drafts
  | .last tree => by
      obtain ⟨first, rfl⟩ := tree.exists_railTree
      exact ⟨first, .nil, List.append_nil _⟩
  | .further id tree rails => by
      obtain ⟨first, rfl⟩ := tree.exists_railTree
      obtain ⟨own, others, rfl⟩ := rails.exists_furtherRails
      exact ⟨first, .rail id own others, rfl⟩

end

end RungText

/-- Every well-nested sequence is that of a tree. -/
theorem exists_railTree {source : List Draft} (nested : WellNested source) :
    ∃ tree : RailTree, tree.drafts = source := by
  obtain ⟨nodes, isTree⟩ := RungText.exists_isTreeOf nested
  exact isTree.exists_railTree

/-! ### Annotation -/

/-- What a rail knows of the branches around it. -/
structure RailPlace where
  /-- The handle of the rail; the main rail has none. -/
  railId : Option BranchId
  /-- The number of branches around the rail. -/
  level : Nat
  /-- The outermost of them. -/
  rootId : Option BranchId

namespace RailPlace

def main : RailPlace := ⟨none, 0, none⟩

/-- The place of the first rail of a branch that stands on a rail. -/
def inside (place : RailPlace) (id : BranchId) : RailPlace :=
  ⟨some id, place.level + 1, some (place.rootId.getD id)⟩

/-- The place of another rail of the same branch. -/
def beside (place : RailPlace) (id : BranchId) : RailPlace := { place with railId := some id }

/-- A draft on a rail, with its annotation. -/
def element (place : RailPlace) (position : Nat) (draft : Draft) : Element where
  draft := draft
  position := .ofNat position
  branchLevel := .ofNat place.level
  railId := place.railId
  rootBranchId :=
    match draft with
    | .branchStart id => some (place.rootId.getD id)
    | .branchEnd id => some (place.rootId.getD id)
    | _ => place.rootId
  holderId :=
    match draft with
    | .instruction _ => place.railId
    | _ => none

end RailPlace

mutual

/-- The annotated sequence of a rail from some position on. -/
def RailTree.elements (place : RailPlace) (position : Nat) : RailTree → List Element
  | .nil => []
  | .instruction content rest =>
      place.element position (.instruction content) :: rest.elements place (position + 1)
  | .branch id first further rest =>
      let next := position + 1 + first.drafts.length
      let last := next + further.drafts.length
      place.element position (.branchStart id) ::
        (first.elements (place.inside id) (position + 1) ++
          (further.elements (place.inside id) next ++
            place.element last (.branchEnd id) :: rest.elements place (last + 1)))

/-- The annotated sequence of further rails; `place` is that of any rail of their branch. -/
def FurtherRails.elements (place : RailPlace) (position : Nat) : FurtherRails → List Element
  | .nil => []
  | .rail id own others =>
      (place.beside id).element position (.branchNext id) ::
        (own.elements (place.beside id) (position + 1) ++
          others.elements place (position + 1 + own.drafts.length))

end

/-- The place of the rail that is current within some open branches. -/
def RailPlace.ofFrames (frames : List OpenFrame) : RailPlace :=
  ⟨frames.head?.map (·.railId), frames.length, frames.getLast?.map (·.branchId)⟩

theorem RailPlace.ofFrames_cons (branchId railId : BranchId) (outer : List OpenFrame) :
    ofFrames (⟨branchId, railId⟩ :: outer) =
      ((ofFrames outer).inside branchId).beside railId := by
  unfold ofFrames inside beside
  rw [List.getLast?_cons]
  cases outer.getLast? <;> rfl

namespace WalkState

variable {state : WalkState} {elements : List Element} {rest : List Draft}

/--
The walk that gives `elements` has begun with `own` of them, by as many steps, and goes on
over `rest` within some open branches.
-/
def Begins (state : WalkState) (own : List Element) (rest : List Draft) (frames : List OpenFrame)
    (elements : List Element) : Prop :=
  ∃ (next : WalkState) (others : List Element), next.walk rest = .ok others ∧
    elements = own ++ others ∧ next.frames = frames ∧
    next.position = state.position + own.length

theorem Begins.append {first second : List Element} {after : List Draft}
    {frames lastFrames : List OpenFrame} (begins : state.Begins first rest frames elements)
    (goesOn : ∀ (next : WalkState) (others : List Element), next.frames = frames →
      next.position = state.position + first.length → next.walk rest = .ok others →
        next.Begins second after lastFrames others) :
    state.Begins (first ++ second) after lastFrames elements := by
  obtain ⟨next, others, walksOn, rfl, sameFrames, position⟩ := begins
  obtain ⟨last, later, walksLast, rfl, ends, lastPosition⟩ :=
    goesOn next others sameFrames position walksOn
  refine ⟨last, later, walksLast, (List.append_assoc _ _ _).symm, ends, ?_⟩
  rw [lastPosition, position, List.length_append, Nat.add_assoc]

theorem begins_of_walk_instruction {content : Instruction}
    (walks : state.walk (.instruction content :: rest) = .ok elements) :
    state.Begins [(RailPlace.ofFrames state.frames).element state.position (.instruction content)]
      rest state.frames elements := by
  obtain ⟨element, next, others, steps, walksOn, rfl⟩ := exists_of_walk_cons walks
  cases steps
  exact ⟨_, others, walksOn, rfl, rfl, rfl⟩

theorem begins_of_walk_branchStart {id : BranchId}
    (walks : state.walk (.branchStart id :: rest) = .ok elements) :
    state.Begins [(RailPlace.ofFrames state.frames).element state.position (.branchStart id)]
      rest (⟨id, id⟩ :: state.frames) elements := by
  obtain ⟨element, next, others, steps, walksOn, rfl⟩ := exists_of_walk_cons walks
  cases stepsTo_of_step steps with
  | branchStart free => exact ⟨_, others, walksOn, rfl, rfl, rfl⟩

variable {id branchId railId : BranchId} {outer : List OpenFrame}

theorem begins_of_walk_branchNext (opened : state.frames = ⟨branchId, railId⟩ :: outer)
    (walks : state.walk (.branchNext id :: rest) = .ok elements) :
    state.Begins
      [(((RailPlace.ofFrames outer).inside branchId).beside id).element state.position
        (.branchNext id)]
      rest (⟨branchId, id⟩ :: outer) elements := by
  obtain ⟨element, next, others, steps, walksOn, rfl⟩ := exists_of_walk_cons walks
  cases stepsTo_of_step steps with
  | branchNext openedToo free =>
      obtain ⟨rfl, rfl⟩ := List.cons.inj (opened.symm.trans openedToo)
      refine ⟨_, others, walksOn, ?_, rfl, rfl⟩
      rw [← RailPlace.ofFrames_cons, nextElement, rootId, opened, List.getLast?_cons]
      unfold RailPlace.ofFrames RailPlace.element
      rw [List.getLast?_cons]
      cases outer.getLast? <;> rfl

theorem begins_of_walk_branchEnd (opened : state.frames = ⟨branchId, railId⟩ :: outer)
    (walks : state.walk (.branchEnd id :: rest) = .ok elements) :
    state.Begins [(RailPlace.ofFrames outer).element state.position (.branchEnd id)] rest outer
      elements := by
  obtain ⟨element, next, others, steps, walksOn, rfl⟩ := exists_of_walk_cons walks
  cases stepsTo_of_step steps with
  | branchEnd openedToo same =>
      obtain ⟨rfl, rfl⟩ := List.cons.inj (opened.symm.trans openedToo)
      exact ⟨_, others, walksOn, rfl, rfl, rfl⟩

end WalkState

mutual

@[simp] theorem RailTree.length_elements (place : RailPlace) (position : Nat) :
    ∀ tree : RailTree, (tree.elements place position).length = tree.drafts.length
  | .nil => rfl
  | .instruction content rest => by
      simp only [RailTree.elements, RailTree.drafts, List.length_cons, rest.length_elements]
  | .branch id first further rest => by
      simp only [RailTree.elements, RailTree.drafts, List.length_cons, List.length_append,
        first.length_elements, further.length_elements, rest.length_elements]

@[simp] theorem FurtherRails.length_elements (place : RailPlace) (position : Nat) :
    ∀ rails : FurtherRails, (rails.elements place position).length = rails.drafts.length
  | .nil => rfl
  | .rail id own others => by
      simp only [FurtherRails.elements, FurtherRails.drafts, List.length_cons, List.length_append,
        own.length_elements, others.length_elements]

end

/-- The rail that is current behind the further rails of a branch. -/
def FurtherRails.lastId (railId : BranchId) : FurtherRails → BranchId
  | .nil => railId
  | .rail id _ others => others.lastId id

mutual

/-- A walk over a rail gives its elements and goes on behind it, with the same branches open. -/
theorem RailTree.begins_of_walk {state : WalkState} {elements : List Element}
    {after : List Draft} :
    ∀ tree : RailTree, state.walk (tree.drafts ++ after) = .ok elements →
      state.Begins (tree.elements (.ofFrames state.frames) state.position) after state.frames
        elements
  | .nil, walks => ⟨state, elements, walks, rfl, rfl, rfl⟩
  | .instruction content rest, walks => by
      refine (WalkState.begins_of_walk_instruction walks).append
        fun next others frames position walksOn => ?_
      have later := rest.begins_of_walk walksOn
      rw [frames, position] at later
      exact later
  | .branch id first further rest, walks => by
      rw [RailTree.drafts, List.cons_append, List.append_assoc, List.append_assoc,
        List.cons_append] at walks
      refine (WalkState.begins_of_walk_branchStart walks).append
        fun inside _ frames position walksOn => ?_
      have begins := first.begins_of_walk walksOn
      rw [frames, position, RailPlace.ofFrames_cons] at begins
      refine begins.append fun behindFirst _ frames firstPosition walksOn => ?_
      rw [position, List.length_singleton, RailTree.length_elements] at firstPosition
      have begins := further.begins_of_walk frames walksOn
      rw [firstPosition] at begins
      refine begins.append fun atEnd _ frames endPosition walksOn => ?_
      rw [firstPosition, FurtherRails.length_elements] at endPosition
      have begins := WalkState.begins_of_walk_branchEnd frames walksOn
      rw [endPosition] at begins
      refine begins.append fun behind _ frames lastPosition walksOn => ?_
      have later := rest.begins_of_walk walksOn
      rw [frames, lastPosition, endPosition] at later
      exact later

/-- A walk over the further rails of a branch gives their elements, and it stays in the branch. -/
theorem FurtherRails.begins_of_walk {state : WalkState} {elements : List Element}
    {after : List Draft} {branchId railId : BranchId} {outer : List OpenFrame}
    (opened : state.frames = ⟨branchId, railId⟩ :: outer) :
    ∀ rails : FurtherRails, state.walk (rails.drafts ++ after) = .ok elements →
      state.Begins (rails.elements ((RailPlace.ofFrames outer).inside branchId) state.position)
        after (⟨branchId, rails.lastId railId⟩ :: outer) elements
  | .nil, walks => ⟨state, elements, walks, rfl, opened, rfl⟩
  | .rail id own others, walks => by
      rw [FurtherRails.drafts, List.cons_append, List.append_assoc] at walks
      refine (WalkState.begins_of_walk_branchNext opened walks).append
        fun below _ frames position walksOn => ?_
      have begins := own.begins_of_walk walksOn
      rw [frames, position, RailPlace.ofFrames_cons] at begins
      refine begins.append fun behind _ frames ownPosition walksOn => ?_
      rw [position, List.length_singleton, RailTree.length_elements] at ownPosition
      have later := others.begins_of_walk frames walksOn
      rw [ownPosition] at later
      exact later

end

/-- The annotated sequence of a tree is computed on the tree. -/
theorem elements_of_annotate {tree : RailTree} {elements : List Element}
    (annotates : annotate tree.drafts = .ok elements) : elements = tree.elements .main 0 := by
  unfold annotate at annotates
  rw [← List.append_nil tree.drafts] at annotates
  obtain ⟨next, further, walksOn, rfl, frames, _⟩ := tree.begins_of_walk annotates
  unfold WalkState.walk at walksOn
  rw [frames] at walksOn
  cases walksOn
  exact List.append_nil _

end LadderDiagram
