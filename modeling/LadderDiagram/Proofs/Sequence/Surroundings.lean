import LadderDiagram.Proofs.Sequence.Enclosing

/-!
# What stands around a part of a sequence

What the walk of an annotation writes into an element depends on the open branches that it
comes with, and but for the position on nothing else that it has met.  So the elements can be
read off the drafts as the open branches can, by a function that may be cut at any gap.
Where a part of a sequence gives way to another one behind which the same branches are open
with the same rails, all elements around it stay what they are.  A part that stays on its
rail may itself be put elsewhere: it comes to lie inside other branches, and nothing else
about what is in it is new.
-/

namespace LadderDiagram

/-- An element without its position: what it is, and what it says of the branches around it. -/
def Element.unplaced (element : Element) : Element := { element with position := .ofNat 0 }

/-- An element is determined by what it is without its position, and its position. -/
theorem Element.eq_of_unplaced {element other : Element}
    (same : other.unplaced = element.unplaced) (position : other.position = element.position) :
    other = element := by
  have placed (any : Element) : { any.unplaced with position := any.position } = any := rfl
  rw [← placed other, ← placed element, same, position]

/-- The element of a draft inside some open branches, without its position. -/
def Draft.unplacedWithin (frames : List OpenFrame) : Draft → Element
  | .instruction content => WalkState.instructionElement ⟨0, frames, []⟩ content
  | .branchStart id => WalkState.startElement ⟨0, frames, []⟩ id
  | .branchNext id => WalkState.nextElement ⟨0, frames, []⟩ id
  | .branchEnd id => WalkState.endElement ⟨0, frames, []⟩ id frames.tail

/-- The elements of a list of drafts inside some open branches, without their positions. -/
def unplacedWithin (frames : List OpenFrame) : List Draft → List Element
  | [] => []
  | draft :: rest => draft.unplacedWithin frames :: unplacedWithin (draft.turn frames) rest

@[simp] theorem Draft.draft_unplacedWithin (draft : Draft) (frames : List OpenFrame) :
    (draft.unplacedWithin frames).draft = draft := by
  cases draft <;> rfl

@[simp] theorem length_unplacedWithin (frames : List OpenFrame) (source : List Draft) :
    (unplacedWithin frames source).length = source.length := by
  induction source generalizing frames with
  | nil => rfl
  | cons draft rest ih => exact congrArg (· + 1) (ih _)

theorem unplacedWithin_append (frames : List OpenFrame) (first last : List Draft) :
    unplacedWithin frames (first ++ last) =
      unplacedWithin frames first ++ unplacedWithin (framesAfter frames first) last := by
  induction first generalizing frames with
  | nil => rfl
  | cons draft rest ih => exact congrArg _ (ih _)

/-- A step writes into its element what the open branches say. -/
theorem WalkState.unplaced_of_step {state next : WalkState} {draft : Draft} {element : Element}
    (steps : state.step draft = .ok (element, next)) :
    element.unplaced = draft.unplacedWithin state.frames := by
  cases stepsTo_of_step steps with
  | instruction content => rfl
  | branchStart free => rfl
  | branchNext opened free => rfl
  | branchEnd opened same =>
      simp only [Draft.unplacedWithin, opened, List.tail_cons]
      rfl

theorem WalkState.unplaced_of_walk {state : WalkState} {source : List Draft}
    {elements : List Element} (walks : state.walk source = .ok elements) :
    elements.map Element.unplaced = unplacedWithin state.frames source := by
  induction source generalizing state elements with
  | nil =>
      obtain rfl := List.map_eq_nil_iff.mp (drafts_of_walk walks).1
      rfl
  | cons draft rest ih =>
      obtain ⟨element, next, others, steps, walksOn, rfl⟩ := exists_of_walk_cons walks
      rw [List.map_cons, unplaced_of_step steps, ih walksOn, frames_of_step steps]
      rfl

/-- But for their positions, the elements of a sequence are read off its drafts. -/
theorem unplaced_of_annotate {source : List Draft} {elements : List Element}
    (annotates : annotate source = .ok elements) :
    elements.map Element.unplaced = unplacedWithin [] source :=
  WalkState.unplaced_of_walk annotates

theorem unplacedWithin_take (frames : List OpenFrame) (source : List Draft) (gap : Nat) :
    unplacedWithin frames (source.take gap) = (unplacedWithin frames source).take gap := by
  induction source generalizing frames gap with
  | nil => simp [unplacedWithin]
  | cons draft rest ih =>
      cases gap with
      | zero => rfl
      | succ gap => exact congrArg _ (ih _ gap)

theorem unplacedWithin_drop (frames : List OpenFrame) (source : List Draft) (gap : Nat) :
    unplacedWithin (framesAfter frames (source.take gap)) (source.drop gap) =
      (unplacedWithin frames source).drop gap := by
  induction source generalizing frames gap with
  | nil => simp [unplacedWithin]
  | cons draft rest ih =>
      cases gap with
      | zero => rfl
      | succ gap => exact ih _ gap

/-- The parts of an annotated sequence are read off the parts of its drafts. -/
theorem unplaced_parts {source : List Draft} {elements : List Element}
    (annotates : annotate source = .ok elements) {start finish : Nat} (ordered : start ≤ finish) :
    (elements.take start).map Element.unplaced = unplacedWithin [] (source.take start) ∧
      ((elements.take finish).drop start).map Element.unplaced =
        unplacedWithin (framesAfter [] (source.take start)) ((source.take finish).drop start) ∧
      (elements.drop finish).map Element.unplaced =
        unplacedWithin (framesAfter [] (source.take finish)) (source.drop finish) := by
  have all := unplaced_of_annotate annotates
  refine ⟨?_, ?_, ?_⟩
  · rw [List.map_take, all, unplacedWithin_take]
  · have upToStart : source.take start = (source.take finish).take start := by
      rw [List.take_take, Nat.min_eq_left ordered]
    rw [List.map_drop, List.map_take, all, upToStart, unplacedWithin_drop, unplacedWithin_take]
  · rw [List.map_drop, all, unplacedWithin_drop]

/-- Sequences of drafts that begin alike begin with the same elements. -/
theorem take_eq_of_annotate {source other : List Draft} {elements others : List Element}
    (annotates : annotate source = .ok elements) (annotatesOther : annotate other = .ok others)
    {gap : Nat} (same : source.take gap = other.take gap) :
    elements.take gap = others.take gap := by
  have alike : (elements.take gap).map Element.unplaced =
      (others.take gap).map Element.unplaced := by
    rw [List.map_take, List.map_take, unplaced_of_annotate annotates,
      unplaced_of_annotate annotatesOther, ← unplacedWithin_take, ← unplacedWithin_take, same]
  have stands {items : List Element} {place : Nat} {element : Element}
      (found : (items.take gap)[place]? = some element) : items[place]? = some element := by
    rw [List.getElem?_take] at found
    split at found
    next => exact found
    next => cases found
  apply List.ext_getElem?
  intro place
  have here := congrArg (·[place]?) alike
  simp only [List.getElem?_map] at here
  cases found : (elements.take gap)[place]? with
  | none =>
      rw [found] at here
      exact (Option.map_eq_none_iff.mp here.symm).symm
  | some element =>
      rw [found] at here
      obtain ⟨twin, foundToo, unplaced⟩ := Option.map_eq_some_iff.mp here.symm
      rw [foundToo]
      have position := position_of_annotate annotates (stands found)
      have positionToo := position_of_annotate annotatesOther (stands foundToo)
      exact congrArg some
        (Element.eq_of_unplaced unplaced (positionToo.trans position.symm)).symm

/-- The rail on which a walk stands that has some open branches. -/
def innermostRail (frames : List OpenFrame) : Option BranchId := frames.head?.map (·.railId)

/-- A gap lies on the rail and at the level that are open behind the drafts before it. -/
theorem railAtGap_and_levelAtGap {source : List Draft} {elements : List Element}
    (annotates : annotate source = .ok elements) {gap : Nat} (within : gap ≤ source.length) :
    railAtGap elements gap = innermostRail (framesAfter [] (source.take gap)) ∧
      levelAtGap elements gap = .ofNat (framesAfter [] (source.take gap)).length := by
  rw [← List.take_append_drop gap source] at annotates
  obtain ⟨own, _, state, passes, _, _, rail, level⟩ := exists_passes_of_annotate annotates
  rw [List.length_take_of_le within] at rail level
  have frames : state.frames = framesAfter [] (source.take gap) := passes.frames_eq
  rw [rail, level, ← frames]
  exact ⟨rfl, rfl⟩

/-! ### Instructions put in and taken out -/

/-- An instruction that is taken out leaves all others as they are. -/
theorem unplacedWithin_eraseIdx {source : List Draft} {place : Nat} {content : Instruction}
    (found : source[place]? = some (.instruction content)) :
    unplacedWithin [] (source.eraseIdx place) = (unplacedWithin [] source).eraseIdx place := by
  obtain ⟨first, last, rfl, rfl⟩ := exists_split_at_place found
  rw [eraseIdx_append_length, unplacedWithin_append, unplacedWithin_append]
  have erased := eraseIdx_append_length (unplacedWithin [] first)
    (unplacedWithin (framesAfter [] first) last)
    ((Draft.instruction content).unplacedWithin (framesAfter [] first))
  rw [length_unplacedWithin] at erased
  exact erased.symm

/-- An instruction that is put in leaves all others as they are. -/
theorem unplacedWithin_insertIdx {source : List Draft} {gap : Nat} (within : gap ≤ source.length)
    (content : Instruction) :
    unplacedWithin [] (source.insertIdx gap (.instruction content)) =
      (unplacedWithin [] source).insertIdx gap
        ((Draft.instruction content).unplacedWithin (framesAfter [] (source.take gap))) := by
  obtain ⟨first, last, rfl, rfl⟩ := exists_split_at_gap within
  rw [insertIdx_append_length, List.take_left, unplacedWithin_append, unplacedWithin_append]
  have inserted := insertIdx_append_length (unplacedWithin [] first)
    (unplacedWithin (framesAfter [] first) last)
    ((Draft.instruction content).unplacedWithin (framesAfter [] first))
  rw [length_unplacedWithin] at inserted
  exact inserted.symm

/-! ### Parts that stay on their rail -/

/-- A sequence of the grammar leaves the branches around it open, with their rails. -/
theorem RailTree.framesAfter_drafts (tree : RailTree) (frames : List OpenFrame) :
    framesAfter frames tree.drafts = frames :=
  framesAfter_of_openAfter? (tree.openAfter?_drafts 0) frames

section Branches

variable {id : BranchId} {block : List Draft}

theorem IsBranch.isSequence (isBranch : IsBranch id block) : IsSequence block :=
  isSequence_iff.mpr isBranch.pairsUp

theorem IsBranch.openAfter?_eq (isBranch : IsBranch id block) : openAfter? 0 block = some 0 := by
  obtain ⟨tree, rfl⟩ := isBranch.isSequence
  exact tree.openAfter?_drafts 0

theorem IsBranch.framesAfter_eq (isBranch : IsBranch id block) (frames : List OpenFrame) :
    framesAfter frames block = frames := by
  obtain ⟨tree, rfl⟩ := isBranch.isSequence
  exact tree.framesAfter_drafts frames

/-- A branch is seen inside what is open before it, and so is what stands behind it. -/
theorem IsBranch.unplacedWithin_append (isBranch : IsBranch id block) (first last : List Draft) :
    unplacedWithin [] (first ++ block ++ last) = unplacedWithin [] first ++
      unplacedWithin (framesAfter [] first) block ++
        unplacedWithin (framesAfter [] first) last := by
  rw [LadderDiagram.unplacedWithin_append, LadderDiagram.unplacedWithin_append,
    framesAfter_append, isBranch.framesAfter_eq]

/-- A gap that is counted with a branch is another one without it if it is behind the branch. -/
def gapWithoutBranch (start length gap : Nat) : Nat :=
  if start + length ≤ gap then gap - length else gap

variable {first last : List Draft} {gap : Nat}

theorem gapWithoutBranch_le (within : gap ≤ (first ++ block ++ last).length)
    (outside : gap ≤ first.length ∨ first.length + block.length ≤ gap) :
    gapWithoutBranch first.length block.length gap ≤ (first ++ last).length := by
  simp only [List.length_append] at within ⊢
  unfold gapWithoutBranch
  split <;> omega

/-- At a gap that is not inside it, a branch makes no difference to what is open. -/
theorem IsBranch.framesAfter_take (isBranch : IsBranch id block)
    (outside : gap ≤ first.length ∨ first.length + block.length ≤ gap) :
    framesAfter [] ((first ++ last).take (gapWithoutBranch first.length block.length gap)) =
      framesAfter [] ((first ++ block ++ last).take gap) := by
  unfold gapWithoutBranch
  split
  next behind =>
    -- Behind the branch the gap has the same drafts before it but for those of the branch.
    obtain ⟨distance, rfl⟩ := Nat.exists_eq_add_of_le behind
    have without : first.length + block.length + distance - block.length =
        first.length + distance := by omega
    rw [without, ← List.length_append, List.take_length_add_append,
      List.take_length_add_append, framesAfter_append, framesAfter_append, framesAfter_append,
      isBranch.framesAfter_eq]
  next notBehind =>
    have upTo : gap ≤ first.length := outside.resolve_right notBehind
    rw [List.append_assoc, List.take_append_of_le_length upTo, List.take_append_of_le_length upTo]

/-- Taking a branch out leaves the gaps that are not inside it on their rails. -/
theorem IsBranch.railAtGap_remove (isBranch : IsBranch id block)
    {elements remaining : List Element}
    (annotates : annotate (first ++ block ++ last) = .ok elements)
    (annotatesRest : annotate (first ++ last) = .ok remaining)
    (within : gap ≤ (first ++ block ++ last).length)
    (outside : gap ≤ first.length ∨ first.length + block.length ≤ gap) :
    railAtGap remaining (gapWithoutBranch first.length block.length gap) =
      railAtGap elements gap := by
  rw [railAtGap_eq_railAfter annotates within, railAtGap_eq_railAfter annotatesRest
    (gapWithoutBranch_le within outside), railAfter, railAfter, isBranch.framesAfter_take outside]

end Branches

/--
An element inside some branches on a rail, and the one that it becomes inside as many other
ones.  It stands on that rail or on one that comes with it.
-/
structure Element.Shifts (outer other : Nat) (rail newRail : Option BranchId)
    (element twin : Element) : Prop where
  draft_eq : twin.draft = element.draft
  level : ∃ depth, element.branchLevel = .ofNat (outer + depth) ∧
    twin.branchLevel = .ofNat (other + depth)
  rail : twin.railId = element.railId ∨ element.railId = rail ∧ twin.railId = newRail

section Shifts

variable (inner around beyond : List OpenFrame)

theorem level_append :
    Address.ofNat (inner ++ around).length = .ofNat (around.length + inner.length) := by
  rw [List.length_append, Nat.add_comm]

theorem innermostRail_append :
    innermostRail (inner ++ beyond) = innermostRail (inner ++ around) ∨
      innermostRail (inner ++ around) = innermostRail around ∧
        innermostRail (inner ++ beyond) = innermostRail beyond := by
  cases inner with
  | nil => exact Or.inr ⟨rfl, rfl⟩
  | cons frame outer => exact Or.inl rfl

/-- What stays on its rail shifts by as much as the branches around it are other ones. -/
theorem shifts_unplacedWithin {run : List Draft} {inner : List OpenFrame} {depth : Nat}
    (stays : openAfter? inner.length run = some depth) :
    List.Forall₂ (Element.Shifts around.length beyond.length (innermostRail around)
        (innermostRail beyond))
      (unplacedWithin (inner ++ around) run) (unplacedWithin (inner ++ beyond) run) := by
  induction run generalizing inner with
  | nil => exact .nil
  | cons draft rest ih =>
      have same : (draft.unplacedWithin (inner ++ beyond)).draft =
          (draft.unplacedWithin (inner ++ around)).draft := by
        rw [Draft.draft_unplacedWithin, Draft.draft_unplacedWithin]
      cases draft with
      | instruction content =>
          exact .cons ⟨same, ⟨inner.length, level_append inner around,
            level_append inner beyond⟩, innermostRail_append inner around beyond⟩ (ih stays)
      | branchStart id =>
          exact .cons ⟨same, ⟨inner.length, level_append inner around,
            level_append inner beyond⟩, innermostRail_append inner around beyond⟩
            (@ih (⟨id, id⟩ :: inner) stays)
      | branchNext id =>
          cases inner with
          | nil => cases stays
          | cons frame inner =>
              exact .cons ⟨same, ⟨inner.length + 1, level_append (frame :: inner) around,
                level_append (frame :: inner) beyond⟩, Or.inl rfl⟩
                (@ih ({ frame with railId := id } :: inner) stays)
      | branchEnd id =>
          cases inner with
          | nil => cases stays
          | cons frame inner =>
              exact .cons ⟨same, ⟨inner.length, level_append inner around,
                level_append inner beyond⟩, innermostRail_append inner around beyond⟩ (ih stays)

end Shifts

end LadderDiagram
