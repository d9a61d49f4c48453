import LadderDiagram.Proofs.Sequence.Splice

/-!
# The rail of a gap

The rail on which a gap lies, and the number of branches around it, are read off the element
before the gap.  They are those that the walk of the annotation knows when it gets there, so
they depend on what stands before the gap only, and they are what it writes into an
instruction behind the gap.
-/

namespace LadderDiagram

namespace Element

/-- The rail on which the gap behind an element lies. -/
def railBehind (element : Element) : Option BranchId :=
  match element.draft with
  | .branchStart id => some id
  | _ => element.railId

/-- The number of branches around that rail. -/
def levelBehind (element : Element) : Address :=
  match element.draft with
  | .branchStart _ => element.branchLevel.next
  | _ => element.branchLevel

end Element

theorem railAtGap_succ {elements : List Element} {place : Nat} {element : Element}
    (stands : elements[place]? = some element) :
    railAtGap elements (place + 1) = element.railBehind := by
  rw [railAtGap, stands]
  rfl

namespace WalkState

/-- A walk that has given elements to some drafts and stands in another state then. -/
inductive Passes : WalkState → List Draft → List Element → WalkState → Prop
  | nil (state : WalkState) : Passes state [] [] state
  | cons {state next last : WalkState} {draft : Draft} {rest : List Draft} {element : Element}
      {others : List Element} (steps : state.step draft = .ok (element, next))
      (passes : Passes next rest others last) :
      Passes state (draft :: rest) (element :: others) last

variable {state last : WalkState} {first rest : List Draft} {own elements : List Element}

/-- A walk over two lists of drafts passes over the first one. -/
theorem exists_passes (walks : state.walk (first ++ rest) = .ok elements) :
    ∃ own others last, state.Passes first own last ∧ last.walk rest = .ok others ∧
      elements = own ++ others := by
  induction first generalizing state elements with
  | nil => exact ⟨[], elements, state, .nil state, walks, rfl⟩
  | cons draft more ih =>
      obtain ⟨element, next, later, steps, walksOn, rfl⟩ := exists_of_walk_cons walks
      obtain ⟨own, others, last, passes, walksLast, rfl⟩ := ih walksOn
      exact ⟨element :: own, others, last, .cons steps passes, walksLast, rfl⟩

theorem Passes.length_eq (passes : state.Passes first own last) : own.length = first.length := by
  induction passes with
  | nil => rfl
  | cons _ _ ih => exact congrArg (· + 1) ih

theorem Passes.branchesAfter?_eq (passes : state.Passes first own last) :
    branchesAfter? state.openIds first = some last.openIds := by
  induction passes with
  | nil state => rfl
  | cons steps _ ih =>
      rw [branchesAfter?_cons, (advances_of_step steps).branches]
      exact ih

/-- A step comes to the rail that lies behind its element. -/
theorem behind_of_step {next : WalkState} {draft : Draft} {element : Element}
    (steps : state.step draft = .ok (element, next)) :
    element.railBehind = next.railId ∧ element.levelBehind = .ofNat next.frames.length := by
  cases stepsTo_of_step steps with
  | instruction content => exact ⟨rfl, rfl⟩
  | branchStart free => exact ⟨rfl, rfl⟩
  | branchNext opened free =>
      refine ⟨rfl, ?_⟩
      change Address.ofNat state.frames.length = _
      rw [opened]
      rfl
  | branchEnd opened same => exact ⟨rfl, rfl⟩

/-- The element that a walk gives last has the rail on which the walk stands behind it. -/
theorem Passes.behind_getLast (passes : state.Passes first own last) {element : Element}
    (isLast : own.getLast? = some element) :
    element.railBehind = last.railId ∧ element.levelBehind = .ofNat last.frames.length := by
  induction passes with
  | nil => cases isLast
  | @cons state next last draft rest head others steps passes ih =>
      cases others with
      | nil =>
          cases passes
          obtain rfl : head = element := Option.some.inj isLast
          exact behind_of_step steps
      | cons second more => exact ih (by rwa [List.getLast?_cons_cons] at isLast)

end WalkState

/-! ### Annotated sequences -/

/-- The number of branches around the rail on which a gap lies. -/
def levelAtGap (elements : List Element) : Nat → Address
  | 0 => .ofNat 0
  | place + 1 => (elements[place]?.map Element.levelBehind).getD (.ofNat 0)

theorem levelAtGap_succ {elements : List Element} {place : Nat} {element : Element}
    (stands : elements[place]? = some element) :
    levelAtGap elements (place + 1) = element.levelBehind := by
  rw [levelAtGap, stands]
  rfl

section Annotated

variable {first last : List Draft} {elements : List Element}

/-- What an annotation knows at a gap: the rail of the gap and the branches around it. -/
theorem exists_passes_of_annotate (annotates : annotate (first ++ last) = .ok elements) :
    ∃ own others state, WalkState.start.Passes first own state ∧
      state.walk last = .ok others ∧ elements = own ++ others ∧
      railAtGap elements first.length = state.railId ∧
      levelAtGap elements first.length = .ofNat state.frames.length := by
  obtain ⟨own, others, state, passes, walksOn, rfl⟩ := WalkState.exists_passes annotates
  refine ⟨own, others, state, passes, walksOn, rfl, ?_⟩
  rw [← passes.length_eq]
  cases behind : own.getLast? with
  | none =>
      obtain rfl := List.getLast?_eq_none_iff.mp behind
      cases passes
      exact ⟨rfl, rfl⟩
  | some element =>
      obtain ⟨before, rfl⟩ := List.getLast?_eq_some_iff.mp behind
      obtain ⟨rail, level⟩ := passes.behind_getLast behind
      have stands : (before ++ [element] ++ others)[before.length]? = some element := by
        rw [List.append_assoc, List.getElem?_append_right (Nat.le_refl _), Nat.sub_self]
        rfl
      rw [List.length_append, List.length_singleton, railAtGap_succ stands,
        levelAtGap_succ stands]
      exact ⟨rail, level⟩

/-- The level of a gap is the number of branches that are open there. -/
theorem levelAtGap_of_annotate {source : List Draft} (annotates : annotate source = .ok elements)
    {gap : Nat} (within : gap ≤ source.length) :
    ∃ around, branchesAfter? [] (source.take gap) = some around ∧
      levelAtGap elements gap = .ofNat around.length := by
  rw [← List.take_append_drop gap source] at annotates
  obtain ⟨own, _, state, passes, _, _, _, level⟩ := exists_passes_of_annotate annotates
  rw [List.length_take_of_le within] at level
  refine ⟨state.openIds, passes.branchesAfter?_eq, ?_⟩
  rw [level, WalkState.openIds, List.length_map]

/-- An instruction or a start marker stands on the rail of the gap before it. -/
theorem exists_element_of_annotate {source : List Draft}
    (annotates : annotate source = .ok elements)
    {place : Nat} {draft : Draft} (found : source[place]? = some draft)
    (stays : draft.kind = .instruction ∨ draft.kind = .branchStart) :
    ∃ element, elements[place]? = some element ∧ element.draft = draft ∧
      element.position = .ofNat place ∧ element.railId = railAtGap elements place := by
  obtain ⟨first, last, rfl, rfl⟩ := exists_split_at_place found
  obtain ⟨own, others, state, passes, walksOn, rfl, rail, _⟩ :=
    exists_passes_of_annotate annotates
  obtain ⟨element, next, more, steps, _, rfl⟩ := WalkState.exists_of_walk_cons walksOn
  have stands : (own ++ element :: more)[first.length]? = some element := by
    rw [← passes.length_eq, List.getElem?_append_right (Nat.le_refl _), Nat.sub_self]
    rfl
  have advance := WalkState.advances_of_step steps
  refine ⟨element, stands, advance.draft_eq, position_of_annotate annotates stands, ?_⟩
  rw [rail]
  cases WalkState.stepsTo_of_step steps with
  | instruction content => rfl
  | branchStart free => rfl
  | branchNext opened free => simp [Draft.kind] at stays
  | branchEnd opened same => simp [Draft.kind] at stays

theorem railId_of_annotate {source : List Draft} (annotates : annotate source = .ok elements)
    {place : Nat} {element : Element} (stands : elements[place]? = some element)
    (stays : element.kind = .instruction ∨ element.kind = .branchStart) :
    element.railId = railAtGap elements place := by
  obtain ⟨_, standsToo, _, _, isRail⟩ :=
    exists_element_of_annotate annotates (draft_of_annotate annotates stands) stays
  cases stands.symm.trans standsToo
  exact isRail

end Annotated

end LadderDiagram
