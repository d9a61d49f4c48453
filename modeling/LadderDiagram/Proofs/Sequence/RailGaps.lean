import LadderDiagram.Proofs.Sequence.Surroundings
import Mathlib.Data.List.InsertIdx

/-!
# The gaps of a rail

The rail of a gap is read off the element before it, and yet it says what annotation makes of an
instruction that is put there.  For a rail fixes what is open on it: at any two of its gaps the same
branches are open with the same rails, as they are behind the marker that opens it.  On a rail stand
instructions and whole branches, one behind another.  A gap of the rail lies where the rail begins
or behind one of these, and where the rail ends or before one of them; inside them there is none.
-/

namespace LadderDiagram

/-! ### The branches that are open on a rail -/

section Annotated

variable {source : List Draft} {elements : List Element}

/-- At two gaps of one rail the same branches are open, with the same rails. -/
theorem framesAfter_eq_of_railAtGap_eq (annotates : annotate source = .ok elements)
    {start finish : Nat} (ordered : start ≤ finish) (within : finish ≤ source.length)
    (same : railAtGap elements start = railAtGap elements finish) :
    framesAfter [] (source.take start) = framesAfter [] (source.take finish) := by
  have whole := isSelfContainedRun_of_railAtGap annotates ordered within same
  obtain rfl := drafts_of_annotate annotates
  rw [← take_append_drop_take ordered, framesAfter_append,
    framesAfter_of_openAfter? (isSelfContainedRun_iff.mp whole)]

/-- The element at a place says what is open before it. -/
theorem unplaced_of_getElem? (annotates : annotate source = .ok elements) {place : Nat}
    {element : Element} (stands : elements[place]? = some element) :
    element.unplaced = element.draft.unplacedWithin (framesAfter [] (source.take place)) := by
  have all := congrArg (·[place]?) (unplaced_of_annotate annotates)
  obtain ⟨first, last, rfl, rfl⟩ := exists_split_at_place (draft_of_annotate annotates stands)
  rw [List.take_left]
  have here := getElem?_append_length (unplacedWithin [] first)
    (unplacedWithin (element.draft.turn (framesAfter [] first)) last)
    (element.draft.unplacedWithin (framesAfter [] first))
  rw [length_unplacedWithin] at here
  simp only [List.getElem?_map, stands, unplacedWithin_append] at all
  exact Option.some.inj (all.trans here)

end Annotated

/--
A rail of a sequence: no branch is around the main rail, and any other one has the level and the
outermost branch that the marker has which opens it.
-/
inductive RailPlace.IsIn (elements : List Element) : RailPlace → Prop
  | main : IsIn elements .main
  | opened {position level : Nat} {marker : Element} {id : BranchId}
      (stands : elements[position]? = some marker) (opens : marker.openedRail? = some id)
      (isLevel : marker.levelBehind = .ofNat level) :
      IsIn elements ⟨some id, level, marker.rootBranchId⟩

/-- What a marker says of the rail that it opens is what is open behind it. -/
theorem Draft.ofFrames_turn {draft : Draft} {id : BranchId} (opens : draft.openedRail? = some id)
    {frames : List OpenFrame} (inside : draft.EndsRail → frames ≠ []) :
    (draft.unplacedWithin frames).levelBehind = .ofNat (draft.turn frames).length ∧
      RailPlace.ofFrames (draft.turn frames) =
        ⟨some id, (draft.turn frames).length, (draft.unplacedWithin frames).rootBranchId⟩ := by
  cases draft with
  | instruction content => cases opens
  | branchStart own =>
      cases opens
      exact ⟨rfl, RailPlace.ofFrames_cons id id frames⟩
  | branchNext own =>
      cases opens
      obtain ⟨frame, outer, rfl⟩ := List.exists_cons_of_ne_nil (inside (Or.inl rfl))
      refine ⟨rfl, ?_⟩
      simp only [Draft.turn, RailPlace.ofFrames, Draft.unplacedWithin, WalkState.nextElement,
        WalkState.rootId, List.getLast?_cons]
      cases outer.getLast? <;> rfl
  | branchEnd own => cases opens

section Places

variable {source : List Draft} {elements : List Element} {place : RailPlace}

/-- A marker that opens a rail says of it what is open behind the marker. -/
theorem ofFrames_of_opens (annotates : annotate source = .ok elements) {position : Nat}
    {marker : Element} {id : BranchId} (stands : elements[position]? = some marker)
    (opens : marker.openedRail? = some id) :
    ∃ frames, framesAfter [] (source.take (position + 1)) = frames ∧
      position + 1 ≤ source.length ∧ marker.levelBehind = .ofNat frames.length ∧
        RailPlace.ofFrames frames = ⟨some id, frames.length, marker.rootBranchId⟩ := by
  have unplaced := unplaced_of_getElem? annotates stands
  obtain ⟨first, last, rfl, rfl⟩ := exists_split_at_place (draft_of_annotate annotates stands)
  rw [List.take_left] at unplaced
  have behind : framesAfter [] ((first ++ marker.draft :: last).take (first.length + 1)) =
      marker.draft.turn (framesAfter [] first) := by
    rw [List.take_length_add_append, framesAfter_append]
    rfl
  obtain ⟨level, isPlace⟩ := Draft.ofFrames_turn opens
    fun ends => framesAfter_ne_nil_of_endsRail ends annotates
  rw [← unplaced] at level isPlace
  exact ⟨_, behind, by simp, level, isPlace⟩

/-- Behind the marker that opens a rail the branches are open that are around the rail. -/
theorem RailPlace.IsIn.exists_gap (annotates : annotate source = .ok elements)
    (isIn : place.IsIn elements) :
    ∃ gap ≤ source.length, place = .ofFrames (framesAfter [] (source.take gap)) := by
  cases isIn with
  | main => exact ⟨0, Nat.zero_le _, rfl⟩
  | @opened position level marker id stands opens isLevel =>
      obtain ⟨frames, behind, within, sameLevel, isPlace⟩ :=
        ofFrames_of_opens annotates stands opens
      refine ⟨position + 1, within, ?_⟩
      rw [behind, isPlace, Address.ofNat_inj.mp (sameLevel.symm.trans isLevel)]

/-- What a gap knows of its rail is what the marker says of it that opens the rail. -/
theorem RailPlace.IsIn.eq_ofFrames (annotates : annotate source = .ok elements)
    (isIn : place.IsIn elements) {gap : Nat} (within : gap ≤ source.length)
    (onRail : place.railId = railAtGap elements gap) :
    place = .ofFrames (framesAfter [] (source.take gap)) := by
  obtain ⟨begins, beginsWithin, rfl⟩ := isIn.exists_gap annotates
  have same : railAtGap elements begins = railAtGap elements gap :=
    (railAtGap_and_levelAtGap annotates beginsWithin).1.trans onRail
  rcases Nat.le_total begins gap with ordered | ordered
  · rw [framesAfter_eq_of_railAtGap_eq annotates ordered within same]
  · rw [framesAfter_eq_of_railAtGap_eq annotates ordered beginsWithin same.symm]

/-- Every gap lies on a rail of its sequence. -/
theorem exists_isIn (annotates : annotate source = .ok elements) {gap : Nat}
    (within : gap ≤ source.length) :
    ∃ place : RailPlace, place.IsIn elements ∧ place.railId = railAtGap elements gap := by
  rcases railAtGap_of_annotate annotates within with isMain | ⟨id, opened, isRail⟩
  · exact ⟨.main, .main, isMain.symm⟩
  · obtain ⟨draft, member, opens⟩ := List.mem_filterMap.mp opened
    obtain ⟨position, holds⟩ := List.getElem?_of_mem member
    rw [← drafts_of_annotate annotates, drafts_getElem?] at holds
    obtain ⟨marker, stands, rfl⟩ := Option.map_eq_some_iff.mp holds
    obtain ⟨frames, _, _, level, _⟩ := ofFrames_of_opens annotates stands opens
    exact ⟨_, .opened stands opens level, isRail⟩

end Places

/-! ### An instruction in a gap -/

/-- An element one place further on. -/
def Element.further (element : Element) : Element :=
  { element with position := element.position.next }

/--
A sequence has received an instruction in a gap.  It stands on the rail of the gap, at the level and
in the outermost branch of that rail; what is before it is as it was, and what is behind it has
changed nothing but its position.
-/
structure HasReceived (before : List Element) (gap : Nat) (content : Instruction)
    (after : List Element) (placed : Element) : Prop where
  sequence : after = before.take gap ++ placed :: (before.drop gap).map Element.further
  draft : placed.draft = .instruction content
  position : placed.position = .ofNat gap
  railId : placed.railId = railAtGap before gap
  branchId : placed.branchId = railAtGap before gap
  onRail : ∃ place : RailPlace, place.IsIn before ∧ place.railId = railAtGap before gap
  rail : ∀ place : RailPlace, place.IsIn before → place.railId = railAtGap before gap →
    placed.branchLevel = .ofNat place.level ∧ placed.rootBranchId = place.rootId

section Received

variable {source : List Draft} {elements after : List Element} {gap : Nat}
  {content : Instruction}

/-- Sequences of elements are told apart by what they are without positions, and by these. -/
theorem eq_of_map_unplaced {first second : List Element}
    (unplaced : first.map Element.unplaced = second.map Element.unplaced)
    (positions : first.map Element.position = second.map Element.position) : first = second := by
  induction first generalizing second with
  | nil => exact (List.map_eq_nil_iff.mp unplaced.symm).symm
  | cons element rest ih =>
      obtain ⟨other, others, rfl, same, sameRest⟩ := List.map_eq_cons_iff.mp unplaced.symm
      obtain ⟨position, restPositions⟩ := List.cons.inj positions
      rw [Element.eq_of_unplaced same position.symm, ih sameRest.symm restPositions]

theorem drop_positions (annotates : annotate source = .ok elements) (gap : Nat) :
    (elements.drop gap).map Element.position =
      ((List.range elements.length).drop gap).map Address.ofNat := by
  rw [List.map_drop, positions_of_annotate annotates, List.map_drop]

/-- What is behind a gap moves one place on if one draft more is before it, and changes in
nothing else if the same branches are open there. -/
theorem drop_eq_map_further {other : List Draft} {others : List Element}
    (annotates : annotate source = .ok elements) (annotatesOther : annotate other = .ok others)
    (length : others.length = elements.length + 1)
    (frames : framesAfter [] (other.take (gap + 1)) = framesAfter [] (source.take gap))
    (rest : other.drop (gap + 1) = source.drop gap) :
    others.drop (gap + 1) = (elements.drop gap).map Element.further := by
  apply eq_of_map_unplaced
  · rw [List.map_map]
    change _ = (elements.drop gap).map Element.unplaced
    rw [(unplaced_parts annotatesOther (Nat.le_refl _)).2.2,
      (unplaced_parts annotates (Nat.le_refl _)).2.2, frames, rest]
  · have next : Element.position ∘ Element.further = Address.next ∘ Element.position := rfl
    rw [drop_positions annotatesOther, length, List.range_succ_eq_map, List.drop_succ_cons,
      List.map_map, next, ← List.map_map, drop_positions annotates, List.map_map, ← List.map_drop,
      List.map_map]
    rfl

/-- A sequence that has received an instruction is what it was, but for the instruction and the
positions behind it. -/
theorem eq_of_annotate_insertIdx (annotates : annotate source = .ok elements)
    (within : gap ≤ source.length)
    (annotatesAfter : annotate (source.insertIdx gap (.instruction content)) = .ok after)
    {placed : Element} (stands : after[gap]? = some placed) :
    after = elements.take gap ++ placed :: (elements.drop gap).map Element.further := by
  obtain ⟨front, back, rfl, size⟩ := exists_split_at_place stands
  have length : (front ++ placed :: back).length = elements.length + 1 := by
    rw [← length_drafts, ← length_drafts, drafts_of_annotate annotates,
      drafts_of_annotate annotatesAfter, List.length_insertIdx_of_le_length within]
  obtain ⟨first, last, rfl, rfl⟩ := exists_split_at_gap within
  rw [insertIdx_append_length] at annotatesAfter
  have frames : framesAfter [] ((first ++ .instruction content :: last).take (first.length + 1)) =
      framesAfter [] ((first ++ last).take first.length) := by
    rw [List.take_length_add_append, List.take_left, framesAfter_append]
    rfl
  have rest : (first ++ .instruction content :: last).drop (first.length + 1) =
      (first ++ last).drop first.length := by
    rw [List.drop_length_add_append, List.drop_left]
    rfl
  have before : (first ++ .instruction content :: last).take first.length =
      (first ++ last).take first.length := by
    rw [List.take_left, List.take_left]
  rw [← take_eq_of_annotate annotatesAfter annotates before,
    ← drop_eq_map_further annotates annotatesAfter length frames rest, ← size, List.take_left,
    List.drop_length_add_append]
  rfl

/-- An instruction may be put into any gap, and what it becomes there is what the gap says. -/
theorem exists_hasReceived (annotates : annotate source = .ok elements)
    (within : gap ≤ source.length) (content : Instruction) :
    ∃ after placed, annotate (source.insertIdx gap (.instruction content)) = .ok after ∧
      HasReceived elements gap content after placed := by
  obtain ⟨after, annotatesAfter⟩ := exists_annotate_iff.mpr
    ((wellNested_of_annotate annotates).insertInstruction within content)
  have before : (source.insertIdx gap (.instruction content)).take gap = source.take gap :=
    List.take_insertIdx_eq_take_of_le _ _ _ _ (Nat.le_refl gap)
  have holds : (source.insertIdx gap (.instruction content))[gap]? =
      some (.instruction content) := by
    rw [List.getElem?_insertIdx_self, if_pos within]
  obtain ⟨placed, stands, draft, position, rail⟩ :=
    exists_element_of_annotate annotatesAfter holds (Or.inl rfl)
  have unplaced := unplaced_of_getElem? annotatesAfter stands
  rw [draft, before] at unplaced
  have sameRail : railAtGap after gap = railAtGap elements gap := by
    have withinAfter : gap ≤ (source.insertIdx gap (.instruction content)).length := by
      rw [List.length_insertIdx_of_le_length within]
      exact Nat.le_succ_of_le within
    rw [railAtGap_eq_railAfter annotatesAfter withinAfter,
      railAtGap_eq_railAfter annotates within, before]
  have branchId : placed.branchId = placed.railId :=
    (congrArg Element.branchId unplaced).trans (congrArg Element.railId unplaced).symm
  refine ⟨after, placed, annotatesAfter,
    eq_of_annotate_insertIdx annotates within annotatesAfter stands, draft, position,
    rail.trans sameRail, branchId.trans (rail.trans sameRail), exists_isIn annotates within, ?_⟩
  intro place isIn onRail
  obtain rfl := isIn.eq_ofFrames annotates within onRail
  exact ⟨congrArg Element.branchLevel unplaced, congrArg Element.rootBranchId unplaced⟩

end Received

/-! ### The ends of a rail -/

/-- Behind a marker that opens a rail some branch is open. -/
theorem openAfter?_append_opener {opener : Draft} {id : BranchId}
    (opens : opener.openedRail? = some id) (depth : Nat) (run : List Draft) :
    openAfter? depth (run ++ [opener]) ≠ some 0 := by
  intro stays
  rw [openAfter?_append] at stays
  obtain ⟨around, _, behind⟩ := Option.bind_eq_some_iff.mp stays
  cases opener with
  | instruction content => cases opens
  | branchStart own => cases behind
  | branchNext own =>
      cases around with
      | zero => cases behind
      | succ around => cases behind
  | branchEnd own => cases opens

section Ends

variable {source : List Draft} {elements : List Element} {place gap : Nat} {marker : Element}

theorem railAtGap_of_opens (annotates : annotate source = .ok elements) {id : BranchId}
    (stands : elements[place]? = some marker) (opens : marker.openedRail? = some id) :
    place + 1 ≤ source.length ∧ railAtGap elements (place + 1) = some id := by
  obtain ⟨frames, behind, within, _, isPlace⟩ := ofFrames_of_opens annotates stands opens
  refine ⟨within, ?_⟩
  rw [(railAtGap_and_levelAtGap annotates within).1, behind]
  exact congrArg RailPlace.railId isPlace

/-- The rail that a marker opens has no gap before the marker. -/
theorem railAtGap_ne_of_opens (annotates : annotate source = .ok elements) {id : BranchId}
    (stands : elements[place]? = some marker) (opens : marker.openedRail? = some id)
    (before : gap ≤ place) : railAtGap elements gap ≠ railAtGap elements (place + 1) := by
  intro same
  obtain ⟨within, _⟩ := railAtGap_of_opens annotates stands opens
  have whole := isSelfContainedRun_iff.mp
    (isSelfContainedRun_of_railAtGap annotates (Nat.le_succ_of_le before) within same)
  rw [List.take_add_one, drafts_getElem?, stands, List.drop_append_of_le_length] at whole
  · exact openAfter?_append_opener opens _ _ whole
  · rw [drafts_of_annotate annotates, List.length_take_of_le (Nat.le_of_succ_le within)]
    exact before

/-- The rail that a marker ends has no gap behind the marker. -/
theorem railAtGap_ne_of_endsRail (annotates : annotate source = .ok elements)
    (stands : elements[place]? = some marker) (ends : marker.draft.EndsRail)
    (behind : place < gap) (within : gap ≤ source.length) :
    railAtGap elements place ≠ railAtGap elements gap := by
  intro same
  have whole := isSelfContainedRun_iff.mp
    (isSelfContainedRun_of_railAtGap annotates (Nat.le_of_lt behind) within same)
  have first : ((drafts elements).take gap)[place]? = some marker.draft := by
    rw [List.getElem?_take_of_lt behind, drafts_getElem?, stands]
    rfl
  obtain ⟨others, rest, split, rfl⟩ := exists_split_at_place first
  rw [split, List.drop_left, openAfter?_of_endsRail ends] at whole
  cases whole

/-- A marker that ends a rail does not stand on the main rail. -/
theorem railAtGap_ne_none_of_endsRail (annotates : annotate source = .ok elements)
    (stands : elements[place]? = some marker) (ends : marker.draft.EndsRail) :
    railAtGap elements place ≠ none := by
  obtain ⟨first, last, rfl, rfl⟩ := exists_split_at_place (draft_of_annotate annotates stands)
  have inside := framesAfter_ne_nil_of_endsRail ends annotates
  rw [railAtGap_eq_railAfter annotates (by simp), List.take_left, railAfter]
  simpa using inside

end Ends

/-! ### What stands on a rail -/

/-- A rail runs from one gap to another: the main rail through the whole sequence, and any other
one from behind the marker that opens it up to the marker that ends it. -/
inductive RunsBetween (elements : List Element) : Option BranchId → Nat → Nat → Prop
  | main : RunsBetween elements none 0 elements.length
  | opened {id : BranchId} {start finish : Nat}
      (spans : SpansRail (drafts elements) id start finish) :
      RunsBetween elements (some id) (start + 1) finish

/-- An instruction or a whole branch stands on a rail, between the gap before it and the gap
behind it. -/
inductive StandsBetween (elements : List Element) (rail : Option BranchId) : Nat → Nat → Prop
  | instruction {place : Nat} {element : Element} (stands : elements[place]? = some element)
      (isInstruction : element.kind = .instruction) (onRail : element.railId = rail) :
      StandsBetween elements rail place (place + 1)
  | branch {id : BranchId} {start finish : Nat} {marker : Element}
      (stands : elements[start]? = some marker) (onRail : marker.railId = rail)
      (has : HasBranch elements id start finish) :
      StandsBetween elements rail start (finish + 1)

/--
The gaps of a rail are the places before, between and behind what stands on it: each of them is
the first one or behind an item, the last one or before an item, and none is inside an item.
-/
structure HasGaps (elements : List Element) (rail : Option BranchId) (first last : Nat) : Prop where
  runs : RunsBetween elements rail first last
  behind : ∀ gap ≤ elements.length, railAtGap elements gap = rail ↔
    gap = first ∨ ∃ start, StandsBetween elements rail start gap
  before : ∀ gap ≤ elements.length, railAtGap elements gap = rail ↔
    gap = last ∨ ∃ finish, StandsBetween elements rail gap finish
  outside : ∀ start finish, StandsBetween elements rail start finish →
    ∀ gap, start < gap → gap < finish → railAtGap elements gap ≠ rail

section Items

variable {source : List Draft} {elements : List Element} {rail : Option BranchId}
  {start finish place gap : Nat} {element : Element}

/-- Before a whole branch and behind it lies one rail. -/
theorem HasBranch.railAtGap_eq (annotates : annotate source = .ok elements) {id : BranchId}
    (has : HasBranch elements id start finish) :
    start < finish + 1 ∧ finish + 1 ≤ source.length ∧
      railAtGap elements start = railAtGap elements (finish + 1) := by
  obtain rfl := drafts_of_annotate annotates
  obtain ⟨first, block, last, split, isBranch, rfl, size⟩ :=
    has.exists_split (wellNested_of_annotate annotates)
  have nonempty := length_pos_of_isBranch isBranch
  have within : finish + 1 ≤ (drafts elements).length := by
    rw [split, ← size]
    simp
  refine ⟨by omega, within, ?_⟩
  apply (isSelfContainedRun_iff_railAtGap annotates (by omega) within).mp
  rw [isSelfContainedRun_iff, split, ← size, ← List.length_append, List.take_left, List.drop_left]
  exact isBranch.openAfter?_eq

/-- What stands on a rail has the rail on both sides. -/
theorem StandsBetween.sides (annotates : annotate source = .ok elements)
    (item : StandsBetween elements rail start finish) :
    start < finish ∧ finish ≤ source.length ∧ railAtGap elements start = rail ∧
      railAtGap elements finish = rail := by
  obtain rfl := drafts_of_annotate annotates
  cases item with
  | @instruction place element stands isInstruction onRail =>
      obtain ⟨bounded, _⟩ := List.getElem?_eq_some_iff.mp stands
      have isRail := railId_of_annotate annotates stands (Or.inl isInstruction)
      refine ⟨Nat.lt_succ_self _, by rwa [length_drafts], isRail.symm.trans onRail, ?_⟩
      rw [railAtGap_succ stands, ← onRail]
      unfold Element.railBehind
      split
      next isStart => simp [Element.kind, isStart, Draft.kind] at isInstruction
      next => rfl
  | @branch id start finish marker stands onRail has =>
      have isStart : marker.kind = .branchStart := by
        have holds := draft_of_annotate annotates stands
        exact congrArg Draft.kind (Option.some.inj (holds.symm.trans has.begins))
      have isRail := railId_of_annotate annotates stands (Or.inr isStart)
      obtain ⟨ordered, within, same⟩ := has.railAtGap_eq annotates
      exact ⟨ordered, within, isRail.symm.trans onRail, same.symm.trans (isRail.symm.trans onRail)⟩

/-- At a gap something begins to stand on the rail of the gap, or the rail ends. -/
theorem exists_standsBetween_or_endsRail (annotates : annotate source = .ok elements)
    (stands : elements[gap]? = some element) :
    (∃ finish, StandsBetween elements (railAtGap elements gap) gap finish) ∨
      element.draft.EndsRail := by
  obtain rfl := drafts_of_annotate annotates
  have onRail := railId_of_annotate annotates stands
  cases isDraft : element.draft with
  | instruction content =>
      have isInstruction : element.kind = .instruction := congrArg Draft.kind isDraft
      exact Or.inl ⟨_, .instruction stands isInstruction (onRail (Or.inl isInstruction))⟩
  | branchStart id =>
      have begins : (drafts elements)[gap]? = some (.branchStart id) :=
        isDraft ▸ draft_of_annotate annotates stands
      obtain ⟨finish, _, _, isEnd⟩ := (wellNested_of_annotate annotates).exists_end begins
      exact Or.inl ⟨_, .branch stands (onRail (Or.inr (congrArg Draft.kind isDraft)))
        ⟨begins, (isEnd finish).mpr rfl⟩⟩
  | branchNext id => exact Or.inr (Or.inl rfl)
  | branchEnd id => exact Or.inr (Or.inr rfl)

/-- At a gap something ends to stand on the rail of the gap, or the rail begins. -/
theorem exists_standsBetween_or_opens (annotates : annotate source = .ok elements)
    (stands : elements[place]? = some element) :
    (∃ start, StandsBetween elements (railAtGap elements (place + 1)) start (place + 1)) ∨
      ∃ id, element.openedRail? = some id := by
  obtain rfl := drafts_of_annotate annotates
  have nested := wellNested_of_annotate annotates
  have behind := railAtGap_succ stands
  unfold Element.railBehind at behind
  cases isDraft : element.draft with
  | instruction content =>
      rw [isDraft] at behind
      exact Or.inl ⟨_, .instruction stands (congrArg Draft.kind isDraft) behind.symm⟩
  | branchStart id => exact Or.inr ⟨id, congrArg Draft.openedRail? isDraft⟩
  | branchNext id => exact Or.inr ⟨id, congrArg Draft.openedRail? isDraft⟩
  | branchEnd id =>
      have ends : (drafts elements)[place]? = some (.branchEnd id) :=
        isDraft ▸ draft_of_annotate annotates stands
      obtain ⟨start, begins⟩ := nested.exists_start ends
      have has : HasBranch elements id start place := ⟨begins, ends⟩
      obtain ⟨marker, starts, _, _, isRail⟩ :=
        exists_element_of_annotate annotates begins (Or.inr rfl)
      exact Or.inl ⟨start, .branch starts (isRail.trans (has.railAtGap_eq annotates).2.2) has⟩

/-- No gap inside a branch lies on the rail on which the branch stands. -/
theorem HasBranch.railAtGap_ne (annotates : annotate source = .ok elements) {id : BranchId}
    (has : HasBranch elements id start finish) (begun : start < gap) (before : gap ≤ finish) :
    railAtGap elements start ≠ railAtGap elements gap := by
  intro same
  obtain ⟨_, within, _⟩ := has.railAtGap_eq annotates
  have gapWithin : gap ≤ source.length := by omega
  have whole := isSelfContainedRun_of_railAtGap annotates (Nat.le_of_lt begun) gapWithin same
  obtain rfl := drafts_of_annotate annotates
  have nested := wellNested_of_annotate annotates
  have counted := branchesAfter?_count (branchesAfter?_of_isSelfContainedRun nested whole) id
  have starts : 0 < (((drafts elements).take gap).drop start).count (.branchStart id) := by
    apply List.count_pos_iff.mpr
    apply List.mem_of_getElem? (i := 0)
    rw [List.getElem?_drop, List.getElem?_take_of_lt (by omega)]
    exact has.begins
  -- As many branches end before the gap as begin, but the branch ends behind it.
  have ends : Draft.branchEnd id ∈ ((drafts elements).take gap).drop start := by
    rw [List.count_nil] at counted
    exact List.count_pos_iff.mp (by omega)
  obtain ⟨place, stands⟩ := List.getElem?_of_mem ends
  rw [List.getElem?_drop, List.getElem?_take] at stands
  split at stands
  next early =>
    have isEnd := has.finish_unique nested ⟨has.begins, stands⟩
    omega
  next => cases stands

theorem StandsBetween.railAtGap_ne (annotates : annotate source = .ok elements)
    (item : StandsBetween elements rail start finish) (begun : start < gap)
    (before : gap < finish) : railAtGap elements gap ≠ rail := by
  obtain ⟨_, _, onRail, _⟩ := item.sides annotates
  rw [← onRail]
  cases item with
  | instruction stands isInstruction isRail => omega
  | branch stands isRail has =>
      exact (has.railAtGap_ne annotates begun (Nat.le_of_lt_succ before)).symm

end Items

section Runs

variable {source : List Draft} {elements : List Element} {rail : Option BranchId}
  {first last gap : Nat}

theorem railAtGap_length (annotates : annotate source = .ok elements) :
    railAtGap elements elements.length = none := by
  obtain rfl := drafts_of_annotate annotates
  rw [← length_drafts, railAtGap_eq_railAfter annotates (Nat.le_refl _), List.take_length,
    railAfter, framesAfter_of_annotate annotates]
  rfl

/-- The rail with a handle lies between the marker that opens it and the one that ends it. -/
theorem SpansRail.sides (annotates : annotate source = .ok elements) {id : BranchId}
    {start finish : Nat} (spans : SpansRail (drafts elements) id start finish) :
    ∃ opener ender : Element, elements[start]? = some opener ∧ opener.openedRail? = some id ∧
      elements[finish]? = some ender ∧ ender.draft.EndsRail ∧
        railAtGap elements (start + 1) = some id ∧ railAtGap elements finish = some id := by
  obtain rfl := drafts_of_annotate annotates
  obtain ⟨_, holds, opens⟩ := spans.opens
  obtain ⟨_, holdsToo, ends⟩ := spans.ends
  obtain ⟨bounded, _⟩ := List.getElem?_eq_some_iff.mp holdsToo
  rw [drafts_getElem?] at holds holdsToo
  obtain ⟨opener, stands, rfl⟩ := Option.map_eq_some_iff.mp holds
  obtain ⟨ender, standsToo, rfl⟩ := Option.map_eq_some_iff.mp holdsToo
  obtain ⟨_, isRail⟩ := railAtGap_of_opens annotates stands opens
  have same : railAtGap elements (start + 1) = railAtGap elements finish := by
    obtain ⟨before, after, marker, closer, inside, split, _, _, rfl, rfl⟩ := spans
    apply (isSelfContainedRun_iff_railAtGap annotates (Nat.le_add_right _ _)
      (Nat.le_of_lt bounded)).mp
    have inParts : drafts elements = (before ++ [marker]) ++ inside.drafts ++ (closer :: after) := by
      rw [split]
      simp
    have size : before.length + 1 = (before ++ [marker]).length := by simp
    rw [isSelfContainedRun_iff, inParts, size, ← List.length_append, List.take_left,
      List.drop_left]
    exact inside.openAfter?_drafts 0
  exact ⟨opener, ender, stands, opens, standsToo, ends, isRail, same.symm.trans isRail⟩

/-- A rail has its handle at both of its ends. -/
theorem RunsBetween.railAtGap_eq (annotates : annotate source = .ok elements)
    (runs : RunsBetween elements rail first last) :
    railAtGap elements first = rail ∧ railAtGap elements last = rail := by
  cases runs with
  | main => exact ⟨rfl, railAtGap_length annotates⟩
  | opened spans =>
      obtain ⟨_, _, _, _, _, _, begins, ends⟩ := spans.sides annotates
      exact ⟨begins, ends⟩

/-- Where a marker opens a rail, there the rail begins. -/
theorem RunsBetween.first_eq (annotates : annotate source = .ok elements)
    (runs : RunsBetween elements rail first last) {place : Nat} {marker : Element} {id : BranchId}
    (stands : elements[place]? = some marker) (opens : marker.openedRail? = some id)
    (onRail : railAtGap elements (place + 1) = rail) : place + 1 = first := by
  cases runs with
  | main => cases (railAtGap_of_opens annotates stands opens).2.symm.trans onRail
  | @opened _ start _ spans =>
      obtain ⟨opener, _, standsToo, opensToo, _, _, begins, _⟩ := spans.sides annotates
      have same := onRail.trans begins.symm
      rcases Nat.lt_trichotomy place start with earlier | rfl | later
      · exact absurd same (railAtGap_ne_of_opens annotates standsToo opensToo earlier)
      · rfl
      · exact absurd same.symm (railAtGap_ne_of_opens annotates stands opens later)

/-- Where a marker ends a rail, there the rail ends. -/
theorem RunsBetween.last_eq (annotates : annotate source = .ok elements)
    (runs : RunsBetween elements rail first last) {marker : Element}
    (stands : elements[gap]? = some marker) (ends : marker.draft.EndsRail)
    (onRail : railAtGap elements gap = rail) : gap = last := by
  cases runs with
  | main => exact absurd onRail (railAtGap_ne_none_of_endsRail annotates stands ends)
  | opened spans =>
      obtain ⟨_, ender, _, _, standsToo, endsToo, _, isRail⟩ := spans.sides annotates
      obtain rfl := drafts_of_annotate annotates
      have within {place : Nat} {element : Element} (stands : elements[place]? = some element) :
          place ≤ (drafts elements).length := by
        rw [length_drafts]
        exact Nat.le_of_lt (List.getElem?_eq_some_iff.mp stands).1
      have same := onRail.trans isRail.symm
      rcases Nat.lt_trichotomy gap last with earlier | same | later
      · exact absurd same
          (railAtGap_ne_of_endsRail annotates stands ends earlier (within standsToo))
      · exact same
      · exact absurd same.symm
          (railAtGap_ne_of_endsRail annotates standsToo endsToo later (within stands))

/-- The gaps of a rail are the places before, between and behind what stands on it. -/
theorem RunsBetween.hasGaps (annotates : annotate source = .ok elements)
    (runs : RunsBetween elements rail first last) : HasGaps elements rail first last := by
  obtain ⟨begins, ends⟩ := runs.railAtGap_eq annotates
  refine ⟨runs, fun gap within => ⟨fun onRail => ?_, ?_⟩, fun gap within => ⟨fun onRail => ?_, ?_⟩,
    fun start finish item gap => item.railAtGap_ne annotates⟩
  · cases gap with
    | zero =>
        cases onRail
        cases runs
        exact Or.inl rfl
    | succ place =>
        have stands := List.getElem?_eq_getElem within
        rcases exists_standsBetween_or_opens annotates stands with item | ⟨id, opens⟩
        · rw [onRail] at item
          exact Or.inr item
        · exact Or.inl (runs.first_eq annotates stands opens onRail)
  · rintro (rfl | ⟨start, item⟩)
    · exact begins
    · exact (item.sides annotates).2.2.2
  · rcases Nat.lt_or_eq_of_le within with inside | rfl
    · have stands := List.getElem?_eq_getElem inside
      rcases exists_standsBetween_or_endsRail annotates stands with item | endsHere
      · rw [onRail] at item
        exact Or.inr item
      · exact Or.inl (runs.last_eq annotates stands endsHere onRail)
    · cases onRail.symm.trans (railAtGap_length annotates)
      cases runs
      exact Or.inl rfl
  · rintro (rfl | ⟨finish, item⟩)
    · exact ends
    · exact (item.sides annotates).2.2.1

/-- Every rail of a sequence runs between two gaps. -/
theorem exists_runsBetween (annotates : annotate source = .ok elements)
    (has : ∀ id ∈ rail, hasRail elements id = true) :
    ∃ first last, RunsBetween elements rail first last := by
  cases rail with
  | none => exact ⟨0, _, .main⟩
  | some id =>
      obtain ⟨opener, member, opens⟩ :=
        List.mem_filterMap.mp (hasRail_iff.mp (has id rfl))
      obtain rfl := drafts_of_annotate annotates
      obtain ⟨before, rest, split⟩ := List.append_of_mem member
      rw [List.append_cons] at split
      rw [split] at annotates
      obtain ⟨finish, spans, _⟩ :=
        (isOpenRail_append_singleton opens).exists_spansRail annotates
      rw [← split] at spans
      exact ⟨_, finish, .opened spans⟩

/-- A handle is that of a rail exactly if some gap lies on this rail. -/
theorem hasRail_iff_exists_gap (annotates : annotate source = .ok elements) {id : BranchId} :
    hasRail elements id = true ↔ ∃ gap ≤ source.length, railAtGap elements gap = some id := by
  constructor
  · intro has
    obtain ⟨opener, member, opens⟩ := List.mem_filterMap.mp (hasRail_iff.mp has)
    obtain ⟨place, holds⟩ := List.getElem?_of_mem member
    rw [drafts_getElem?] at holds
    obtain ⟨marker, stands, rfl⟩ := Option.map_eq_some_iff.mp holds
    obtain ⟨within, isRail⟩ := railAtGap_of_opens annotates stands opens
    exact ⟨place + 1, within, isRail⟩
  · rintro ⟨gap, within, isRail⟩
    rcases railAtGap_of_annotate annotates within with isMain | opened
    · cases isRail.symm.trans isMain
    · rw [isRail, opens_some_iff] at opened
      rwa [hasRail_iff, drafts_of_annotate annotates]

end Runs

/--
The rail of a gap predicts the annotation: an instruction may be put into any gap, it is annotated
with the rail of the gap and changes nothing else but positions.  Every rail has a gap, and the
gaps of a rail are the places before, between and behind what stands on it.
-/
theorem railAtGap_predicts {source : List Draft} {elements : List Element}
    (annotates : annotate source = .ok elements) :
    (∀ gap ≤ source.length, ∀ content, ∃ after placed,
      annotate (source.insertIdx gap (.instruction content)) = .ok after ∧
        HasReceived elements gap content after placed) ∧
      (∀ id, hasRail elements id = true ↔
        ∃ gap ≤ source.length, railAtGap elements gap = some id) ∧
      ∀ rail : Option BranchId, (∀ id ∈ rail, hasRail elements id = true) →
        ∃ first last, HasGaps elements rail first last := by
  refine ⟨fun gap within content => exists_hasReceived annotates within content,
    fun id => hasRail_iff_exists_gap annotates, fun rail has => ?_⟩
  obtain ⟨first, last, runs⟩ := exists_runsBetween annotates has
  exact ⟨first, last, runs.hasGaps annotates⟩

/-- On each of two empty rails of a branch lies one gap, and an instruction may be put into it. -/
theorem railAtGap_predicts_of_emptyRails :
    ∃ elements,
      annotate [.branchStart (.ofNat 0), .branchNext (.ofNat 1), .branchEnd (.ofNat 0)] =
        .ok elements ∧
      (List.range 4).map (railAtGap elements) =
        [none, some (.ofNat 0), some (.ofNat 1), none] ∧
      (∀ content, ∃ after placed,
        annotate [.branchStart (.ofNat 0), .instruction content, .branchNext (.ofNat 1),
          .branchEnd (.ofNat 0)] = .ok after ∧ HasReceived elements 1 content after placed) ∧
      ∃ first last, HasGaps elements (some (.ofNat 1)) first last := by
  obtain ⟨elements, annotates, isRail⟩ : ∃ elements,
      annotate [.branchStart (.ofNat 0), .branchNext (.ofNat 1), .branchEnd (.ofNat 0)] =
        .ok elements ∧ (List.range 4).map (railAtGap elements) =
          [none, some (.ofNat 0), some (.ofNat 1), none] := ⟨_, rfl, rfl⟩
  obtain ⟨receives, hasGap, hasGaps⟩ := railAtGap_predicts annotates
  have opened : hasRail elements (.ofNat 1) = true :=
    (hasGap _).mpr ⟨2, by decide, Option.some.inj (congrArg (·[2]?) isRail)⟩
  refine ⟨elements, annotates, isRail, receives 1 (by decide), hasGaps _ fun id member => ?_⟩
  cases member
  exact opened

end LadderDiagram
