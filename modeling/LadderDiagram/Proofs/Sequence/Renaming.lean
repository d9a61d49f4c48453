import LadderDiagram.Proofs.Sequence.Nesting

/-!
# Renamed sequences

Handles only tell the markers of a sequence apart.  With other handles for them, of which no two
fall together, the walk over a sequence pairs the same markers, and what it says of the elements is
the same but for the handles.
-/

namespace LadderDiagram

/-- A draft with another handle. -/
def Draft.rename (names : BranchId → BranchId) : Draft → Draft
  | .instruction content => .instruction content
  | .branchStart id => .branchStart (names id)
  | .branchNext id => .branchNext (names id)
  | .branchEnd id => .branchEnd (names id)

/-- An element with another handle for every one that it names. -/
def Element.rename (names : BranchId → BranchId) (element : Element) : Element :=
  { element with
    draft := element.draft.rename names
    railId := element.railId.map names
    rootBranchId := element.rootBranchId.map names
    holderId := element.holderId.map names }

variable {names : BranchId → BranchId}

@[simp] theorem Draft.kind_rename (draft : Draft) : (draft.rename names).kind = draft.kind := by
  cases draft <;> rfl

@[simp] theorem Draft.text_rename (draft : Draft) : (draft.rename names).text = draft.text := by
  cases draft <;> rfl

@[simp] theorem Element.kind_rename (element : Element) :
    (element.rename names).kind = element.kind :=
  element.draft.kind_rename

@[simp] theorem Element.branchId_rename (element : Element) :
    (element.rename names).branchId = element.branchId.map names := by
  obtain ⟨draft, _, _, _, _, _⟩ := element
  cases draft <;> rfl

theorem sequenceText_rename (elements : List Element) :
    sequenceText (elements.map (Element.rename names)) = sequenceText elements := by
  unfold sequenceText
  rw [List.map_map]
  exact congrArg (String.join · ++ ";")
    (List.map_congr_left fun element _ => element.draft.text_rename)

theorem branchDepth_rename (elements : List Element) :
    branchDepth (elements.map (Element.rename names)) = branchDepth elements := by
  unfold branchDepth
  rw [List.foldl_map]
  simp only [Element.kind_rename]
  rfl

/-! ### The walk -/

def OpenFrame.rename (names : BranchId → BranchId) (frame : OpenFrame) : OpenFrame :=
  ⟨names frame.branchId, names frame.railId⟩

namespace WalkState

/-- The walk over a renamed sequence. -/
def rename (names : BranchId → BranchId) (state : WalkState) : WalkState where
  position := state.position
  frames := state.frames.map (OpenFrame.rename names)
  claimed := state.claimed.map names

theorem railId_rename (state : WalkState) :
    (state.rename names).railId = state.railId.map names := by
  unfold railId rename
  rw [List.head?_map, Option.map_map, Option.map_map]
  rfl

theorem rootId_rename (state : WalkState) :
    (state.rename names).rootId = state.rootId.map names := by
  unfold rootId rename
  rw [List.getLast?_map, Option.map_map, Option.map_map]
  rfl

@[simp] theorem level_rename (state : WalkState) :
    (state.rename names).frames.length = state.frames.length :=
  List.length_map _

theorem instructionElement_rename (state : WalkState) (content : Instruction) :
    (state.rename names).instructionElement content =
      (state.instructionElement content).rename names := by
  unfold instructionElement
  rw [level_rename, railId_rename, rootId_rename]
  rfl

theorem startElement_rename (state : WalkState) (id : BranchId) :
    (state.rename names).startElement (names id) = (state.startElement id).rename names := by
  unfold startElement
  rw [level_rename, railId_rename, rootId_rename, Option.getD_map]
  rfl

theorem nextElement_rename (state : WalkState) (id : BranchId) :
    (state.rename names).nextElement (names id) = (state.nextElement id).rename names := by
  unfold nextElement
  rw [level_rename, rootId_rename]
  rfl

theorem endElement_rename (state : WalkState) (id : BranchId) (outer : List OpenFrame) :
    (state.rename names).endElement (names id) (outer.map (OpenFrame.rename names)) =
      (state.endElement id outer).rename names := by
  have root : (outer.map (OpenFrame.rename names)).getLast?.map (·.branchId) =
      (outer.getLast?.map (·.branchId)).map names := by
    rw [List.getLast?_map, Option.map_map, Option.map_map]
    rfl
  have rail : (outer.map (OpenFrame.rename names)).head?.map (·.railId) =
      (outer.head?.map (·.railId)).map names := by
    rw [List.head?_map, Option.map_map, Option.map_map]
    rfl
  unfold endElement
  rw [List.length_map, root, rail, Option.getD_map]
  rfl

variable (injective : Function.Injective names)

include injective

theorem not_mem_claimed_rename {state : WalkState} {id : BranchId} (free : id ∉ state.claimed) :
    names id ∉ (state.rename names).claimed :=
  (List.mem_map_of_injective injective).not.mpr free

theorem step_rename {state next : WalkState} {draft : Draft} {element : Element}
    (steps : state.step draft = .ok (element, next)) :
    (state.rename names).step (draft.rename names) =
      .ok (element.rename names, next.rename names) := by
  cases stepsTo_of_step steps with
  | instruction content =>
      rw [← instructionElement_rename]
      exact (StepsTo.instruction content).step_eq
  | branchStart free =>
      rw [← startElement_rename]
      exact (StepsTo.branchStart (not_mem_claimed_rename injective free)).step_eq
  | @branchNext id frame outer opened free =>
      have openedToo : (state.rename names).frames =
          frame.rename names :: outer.map (OpenFrame.rename names) :=
        congrArg (List.map (OpenFrame.rename names)) opened
      rw [← nextElement_rename]
      exact (StepsTo.branchNext openedToo (not_mem_claimed_rename injective free)).step_eq
  | @branchEnd id frame outer opened same =>
      have openedToo : (state.rename names).frames =
          frame.rename names :: outer.map (OpenFrame.rename names) :=
        congrArg (List.map (OpenFrame.rename names)) opened
      rw [← endElement_rename]
      exact (StepsTo.branchEnd openedToo (congrArg names same)).step_eq

theorem walk_rename {state : WalkState} {source : List Draft} {elements : List Element}
    (walks : state.walk source = .ok elements) :
    (state.rename names).walk (source.map (Draft.rename names)) =
      .ok (elements.map (Element.rename names)) := by
  induction source generalizing state elements with
  | nil =>
      obtain ⟨position, frames, claimed⟩ := state
      cases frames with
      | nil =>
          cases walks
          rfl
      | cons frame outer => cases walks
  | cons draft rest ih =>
      obtain ⟨element, next, others, steps, walksOn, rfl⟩ := exists_of_walk_cons walks
      rw [List.map_cons, walk, step_rename injective steps]
      dsimp only
      rw [ih walksOn]
      rfl

end WalkState

/-- A sequence with other handles is annotated as the sequence is. -/
theorem annotate_rename (injective : Function.Injective names) {source : List Draft}
    {elements : List Element} (annotates : annotate source = .ok elements) :
    annotate (source.map (Draft.rename names)) = .ok (elements.map (Element.rename names)) :=
  WalkState.walk_rename injective annotates

end LadderDiagram
