import LadderDiagram.Proofs.Layout.RailRow
import LadderDiagram.Proofs.Layout.Shape
import LadderDiagram.Proofs.Sequence.Grammar

/-!
# Records and sequences

The layout of a rung and its annotated sequence tell of the same branches.  Annotation keeps
a stack of open branches, the pass of a layout keeps another one and writes where a branch
ends only when it closes, and the searches for the ends of branches and rails keep none or
count.  What they agree on is said here of every record by the markers alone: where its branch
or rail begins and ends, which branches are around it, and which rails belong to it.
-/

namespace LadderDiagram

/-! ### Branches and their further rails -/

/-- The handle that an element at a place opens for a further rail of a branch. -/
def furtherRailAt? (source : List Draft) (branch : BranchId) (element : Element) (place : Nat) :
    Option BranchId :=
  match element.draft with
  | .branchNext rail => if branchAround? source place = some branch then some rail else none
  | _ => none

/-- The further rails of a branch whose markers are in a run from a position on, in order. -/
def furtherRailsIn (source : List Draft) (branch : BranchId) (position : Nat)
    (run : List Element) : List BranchId :=
  (run.zipIdx position).filterMap fun (element, place) =>
    furtherRailAt? source branch element place

/-- The further rails of a branch, in the order of their markers. -/
def furtherRails (elements : List Element) (branch : BranchId) : List BranchId :=
  furtherRailsIn (drafts elements) branch 0 elements

/-- The elements that open a rail: the start markers and the next markers. -/
def railMarkers (elements : List Element) : List Element :=
  elements.filter fun element => element.openedRail?.isSome

namespace Branch

variable {α : Type}

/-- The record of a branch says of it what the sequence says. -/
structure IsOfStart (record : Branch α) (elements : List Element) (marker : Element)
    (start finish : Nat) : Prop where
  stands : elements[start]? = some marker
  starts : marker.draft = .branchStart record.id
  ends : findBranchEnd elements start = .ok finish
  startPosition : record.startPosition = .ofNat start
  endPosition : record.endPosition = .ofNat finish
  /-- The branches are counted that start before the whole branch and end behind it. -/
  level : record.branchLevel =
    .ofNat (branchesAcross (drafts elements) start (finish + 1)).length
  root : marker.rootBranchId = some record.rootId
  /-- The rail on which the start marker stands. -/
  parent : record.parentId = marker.railId
  children : record.childIds = furtherRails elements record.id

/--
The record of a further rail, which ends before the place `behind`, says of it and of its
branch, which stands from `start` to `finish`, what the sequence says.
-/
structure IsOfNext (record : Branch α) (elements : List Element) (marker : Element)
    (place behind start finish : Nat) (branch : BranchId) : Prop where
  stands : elements[place]? = some marker
  opens : marker.draft = .branchNext record.id
  ends : findRailEnd elements place = .ok behind
  startPosition : record.startPosition = .ofNat place
  endPosition : record.endPosition = .ofNat (behind - 1)
  around : branchAround? (drafts elements) place = some branch
  isBranch : HasBranch elements branch start finish
  /-- The branches are counted that are around the branch of the rail. -/
  level : record.branchLevel =
    .ofNat (branchesAcross (drafts elements) start (finish + 1)).length
  root : marker.rootBranchId = some record.rootId
  parent : record.parentId = some branch
  children : record.childIds = []

/-- A record is that of the branch or of the further rail that a marker opens. -/
inductive IsOfMarker (elements : List Element) (record : Branch α) (marker : Element) : Prop
  | start {start finish : Nat} (isOf : record.IsOfStart elements marker start finish)
  | next {place behind start finish : Nat} {branch : BranchId}
      (isOf : record.IsOfNext elements marker place behind start finish branch)

end Branch

/--
A layout tells of a sequence what the sequence says: it draws every element on its rail, and it
has a record for every marker that opens a rail, in the order of the markers.
-/
structure LayoutResult.Matches {α : Type} (layout : LayoutResult α) (elements : List Element) :
    Prop where
  placed : layout.elements.map LayoutElement.element = elements
  rails : layout.elements.map LayoutElement.railId = elements.map Element.railId
  records : List.Forall₂ (Branch.IsOfMarker elements) layout.branches (railMarkers elements)
  depth : layout.maxBranchDepth = branchDepth elements

/-! ### Runs of a sequence -/

/-- A run of elements stands in a sequence from a position on, inside some open branches. -/
def IsRunAt (elements : List Element) (position : Nat) (opened : List BranchId)
    (run : List Element) : Prop :=
  ∃ before after, elements = before ++ (run ++ after) ∧ before.length = position ∧
    branchesAfter? [] (drafts before) = some opened

namespace IsRunAt

variable {elements run first second : List Element} {element : Element} {position : Nat}
  {opened left : List BranchId}

theorem left_part (isRun : IsRunAt elements position opened (first ++ second)) :
    IsRunAt elements position opened first := by
  obtain ⟨before, after, split, place, pairsUp⟩ := isRun
  exact ⟨before, second ++ after, by rw [split, List.append_assoc], place, pairsUp⟩

theorem right_part (isRun : IsRunAt elements position opened (first ++ second))
    (pairsUp : branchesAfter? opened (drafts first) = some left) {next : Nat}
    (behind : next = position + first.length) : IsRunAt elements next left second := by
  obtain ⟨before, after, split, rfl, before_pairsUp⟩ := isRun
  refine ⟨before ++ first, after, by simp [split], by rw [List.length_append, behind], ?_⟩
  rw [drafts_append, branchesAfter?_append, before_pairsUp]
  exact pairsUp

theorem tail (isRun : IsRunAt elements position opened (element :: run))
    (pairsUp : branchesAfter? opened [element.draft] = some left) :
    IsRunAt elements (position + 1) left run := by
  have cut : IsRunAt elements position opened ([element] ++ run) := isRun
  exact cut.right_part pairsUp rfl

theorem getElem?_eq (isRun : IsRunAt elements position opened (element :: run)) :
    elements[position]? = some element := by
  obtain ⟨before, after, rfl, rfl, _⟩ := isRun
  exact getElem?_append_length before _ element

theorem getElem?_drafts (isRun : IsRunAt elements position opened (element :: run)) :
    (drafts elements)[position]? = some element.draft := by
  rw [drafts_getElem?, isRun.getElem?_eq, Option.map_some]

theorem drop_eq (isRun : IsRunAt elements position opened run) :
    ∃ after, elements.drop position = run ++ after := by
  obtain ⟨before, after, rfl, rfl, _⟩ := isRun
  exact ⟨after, List.drop_left⟩

variable {place : RailPlace} {id own : BranchId} {outer : List BranchId}

/-- The parts of a branch and of what is behind it: its first rail, the others and the rest. -/
theorem branch_parts {inside rest : RailTree} {further : FurtherRails}
    (isRun : IsRunAt elements position opened
      ((RailTree.branch id inside further rest).elements place position)) :
    let next := position + 1 + inside.drafts.length
    let close := next + further.drafts.length
    let ends := place.element close (.branchEnd id)
    IsRunAt elements (position + 1) (id :: opened)
        (inside.elements (place.inside id) (position + 1)) ∧
      IsRunAt elements next (id :: opened)
        (further.elements (place.inside id) next ++ ends :: rest.elements place (close + 1)) ∧
      IsRunAt elements close (id :: opened) (ends :: rest.elements place (close + 1)) ∧
      IsRunAt elements (close + 1) opened (rest.elements place (close + 1)) := by
  intro next close ends
  rw [RailTree.elements] at isRun
  have behindStart : IsRunAt elements (position + 1) (id :: opened) _ := isRun.tail rfl
  have behindFirst : IsRunAt elements next (id :: opened) _ := behindStart.right_part
    (by rw [inside.drafts_elements, inside.branchesAfter?_drafts])
    (by rw [inside.length_elements])
  have atEnd : IsRunAt elements close (id :: opened) _ := behindFirst.right_part
    (by rw [further.drafts_elements, further.branchesAfter?_drafts])
    (by rw [further.length_elements])
  exact ⟨behindStart.left_part, behindFirst, atEnd, atEnd.tail (branchesAfter?_branchEnd id [])⟩

/-- The parts of a run that begins with a further rail of a branch. -/
theorem rail_parts {inside : RailTree} {others : FurtherRails} {after : List Element}
    (isRun : IsRunAt elements position (own :: outer)
      ((FurtherRails.rail id inside others).elements place position ++ after)) :
    let next := position + 1 + inside.drafts.length
    IsRunAt elements (position + 1) (own :: outer)
        (inside.elements (place.beside id) (position + 1)) ∧
      IsRunAt elements next (own :: outer) (others.elements place next ++ after) := by
  intro next
  rw [FurtherRails.elements, List.cons_append, List.append_assoc] at isRun
  have behindMarker : IsRunAt elements (position + 1) (own :: outer) _ := isRun.tail rfl
  refine ⟨behindMarker.left_part, behindMarker.right_part ?_ ?_⟩
  · rw [inside.drafts_elements, inside.branchesAfter?_drafts]
  · rw [inside.length_elements]

end IsRunAt

/-! ### What is around a run -/

section Nested

variable {elements : List Element} (nested : WellNested (drafts elements))
  {position : Nat} {opened : List BranchId}

include nested

theorem IsRunAt.branchesAcross_eq {run : List Element}
    (isRun : IsRunAt elements position opened run)
    (closed : branchesAfter? opened (drafts run) = some opened) :
    branchesAcross (drafts elements) position (position + run.length) = opened.reverse := by
  obtain ⟨before, after, rfl, rfl, pairsUp⟩ := isRun
  rw [drafts_append, drafts_append] at nested ⊢
  have across := branchesAcross_of_closed nested pairsUp closed
  rw [length_drafts, length_drafts] at across
  exact across

/-- The innermost branch around a next marker is the one that is current. -/
theorem IsRunAt.branchAround?_eq {element : Element} {run : List Element} {rail own : BranchId}
    {outer : List BranchId} (isRun : IsRunAt elements position (own :: outer) (element :: run))
    (isNext : element.draft = .branchNext rail) :
    branchAround? (drafts elements) position = some own := by
  have alone : IsRunAt elements position (own :: outer) [element] := isRun.left_part
  have closed : branchesAfter? (own :: outer) (drafts [element]) = some (own :: outer) := by
    rw [drafts, List.map_singleton, isNext]
    rfl
  rw [branchAround?, ← List.length_singleton (a := element), alone.branchesAcross_eq nested closed,
    List.reverse_cons, List.getLast?_concat]

end Nested

/-! ### The further rails of a branch -/

theorem furtherRailAt?_eq_some {source : List Draft} {branch rail : BranchId} {element : Element}
    {place : Nat} (opens : furtherRailAt? source branch element place = some rail) :
    branchAround? source place = some branch := by
  unfold furtherRailAt? at opens
  split at opens
  next =>
    split at opens
    next around => exact around
    next => cases opens
  next => cases opens

theorem furtherRailsIn_append (source : List Draft) (branch : BranchId) (position : Nat)
    (first second : List Element) :
    furtherRailsIn source branch position (first ++ second) =
      furtherRailsIn source branch position first ++
        furtherRailsIn source branch (position + first.length) second := by
  unfold furtherRailsIn
  rw [List.zipIdx_append, List.filterMap_append]

theorem furtherRailsIn_cons (source : List Draft) (branch : BranchId) (position : Nat)
    (element : Element) (rest : List Element) :
    furtherRailsIn source branch position (element :: rest) =
      (furtherRailAt? source branch element position).toList ++
        furtherRailsIn source branch (position + 1) rest := by
  unfold furtherRailsIn
  rw [List.zipIdx_cons, List.filterMap_cons]
  dsimp only
  cases furtherRailAt? source branch element position <;> rfl

/-- A run at no place of which the branch is around holds none of its further rails. -/
theorem furtherRailsIn_eq_nil {source : List Draft} {branch : BranchId} {position : Nat}
    {run : List Element}
    (apart : ∀ place, position ≤ place → place < position + run.length →
      branchAround? source place ≠ some branch) :
    furtherRailsIn source branch position run = [] := by
  refine List.filterMap_eq_nil_iff.mpr fun (element, place) member => ?_
  obtain ⟨least, bound, _⟩ := List.mem_zipIdx member
  exact Option.eq_none_iff_forall_ne_some.mpr fun rail opens =>
    apart place least bound (furtherRailAt?_eq_some opens)

section Tree

variable {elements : List Element} {branch : BranchId}

mutual

/-- A rail on which a branch does not start holds none of its further rails. -/
theorem RailTree.furtherRailsIn_elements (nested : WellNested (drafts elements))
    (place : RailPlace) (position : Nat) (opened : List BranchId) :
    ∀ tree : RailTree, IsRunAt elements position opened (tree.elements place position) →
      Draft.branchStart branch ∉ tree.drafts →
      furtherRailsIn (drafts elements) branch position (tree.elements place position) = []
  | .nil, _, _ => rfl
  | .instruction content rest, isRun, other => by
      rw [RailTree.elements, furtherRailsIn_cons]
      exact rest.furtherRailsIn_elements nested place _ opened (isRun.tail rfl)
        fun member => other (List.mem_cons_of_mem _ member)
  | .branch id first further rest, isRun, other => by
      obtain ⟨inFirst, inFurther, _, inRest⟩ := isRun.branch_parts
      rw [RailTree.drafts] at other
      simp only [List.mem_cons, List.mem_append, not_or, Draft.branchStart.injEq] at other
      obtain ⟨notOwn, notFirst, notFurther, _, notRest⟩ := other
      rw [RailTree.elements, furtherRailsIn_cons, furtherRailsIn_append, first.length_elements,
        furtherRailsIn_append, further.length_elements, furtherRailsIn_cons,
        first.furtherRailsIn_elements nested _ _ _ inFirst notFirst,
        further.furtherRailsIn_elements nested _ _ _ _ inFurther notFurther,
        if_neg (Ne.symm notOwn), rest.furtherRailsIn_elements nested _ _ _ inRest notRest]
      rfl

/-- A branch has the further rails on which it is current. -/
theorem FurtherRails.furtherRailsIn_elements (nested : WellNested (drafts elements))
    (place : RailPlace) (position : Nat) (own : BranchId) (outer : List BranchId)
    {after : List Element} :
    ∀ rails : FurtherRails, IsRunAt elements position (own :: outer)
        (rails.elements place position ++ after) →
      Draft.branchStart branch ∉ rails.drafts →
      furtherRailsIn (drafts elements) branch position (rails.elements place position) =
        if own = branch then rails.ids else []
  | .nil, _, _ => by
      rw [FurtherRails.ids, ite_self]
      rfl
  | .rail id inside others, isRun, other => by
      obtain ⟨inInside, inOthers⟩ := isRun.rail_parts
      rw [FurtherRails.drafts] at other
      simp only [List.mem_cons, List.mem_append, not_or] at other
      obtain ⟨_, notInside, notOthers⟩ := other
      have around : branchAround? (drafts elements) position = some own :=
        isRun.branchAround?_eq nested rfl
      have opens : furtherRailAt? (drafts elements) branch
          ((place.beside id).element position (.branchNext id)) position =
          if own = branch then some id else none := by
        change ite (branchAround? (drafts elements) position = some branch) _ _ = _
        simp only [around, Option.some.injEq]
      rw [FurtherRails.elements, furtherRailsIn_cons, furtherRailsIn_append,
        inside.length_elements, inside.furtherRailsIn_elements nested _ _ _ inInside notInside,
        others.furtherRailsIn_elements nested _ _ _ _ inOthers notOthers, opens, FurtherRails.ids]
      split_ifs <;> rfl

end

end Tree

/-- A place with a branch around it is between the two markers of the branch. -/
theorem HasBranch.between_of_branchAround? {elements : List Element}
    (nested : WellNested (drafts elements)) {id : BranchId} {start finish place : Nat}
    (has : HasBranch elements id start finish)
    (around : branchAround? (drafts elements) place = some id) :
    start < place ∧ place < finish := by
  obtain ⟨started, ended⟩ := mem_of_branchAround? around
  obtain ⟨other, isStart⟩ := List.mem_iff_getElem?.mp started
  obtain ⟨last, isEnd⟩ := List.mem_iff_getElem?.mp ended
  rw [List.getElem?_take] at isStart
  rw [List.getElem?_drop] at isEnd
  split at isStart
  next before =>
    obtain rfl := has.start_unique nested isStart
    have same := has.finish_unique nested ⟨isStart, isEnd⟩
    omega
  next => cases isStart

/-- A branch does not start once more behind its start marker. -/
theorem HasBranch.branchStart_not_mem {elements run : List Element}
    (nested : WellNested (drafts elements)) {id : BranchId} {start finish position : Nat}
    {opened : List BranchId} (has : HasBranch elements id start finish)
    (isRun : IsRunAt elements position opened run) (behind : start < position) :
    Draft.branchStart id ∉ drafts run := by
  intro member
  obtain ⟨offset, stands⟩ := List.mem_iff_getElem?.mp member
  obtain ⟨after, dropped⟩ := isRun.drop_eq
  have starts : (drafts elements)[position + offset]? = some (.branchStart id) := by
    have bounded : offset < (drafts run).length := (List.getElem?_eq_some_iff.mp stands).1
    rw [← List.getElem?_drop, drafts, ← List.map_drop, dropped]
    exact (congrArg (·[offset]?) (drafts_append run after)).trans
      ((List.getElem?_append_left bounded).trans stands)
  have same := has.start_unique nested starts
  omega

/-! ### The branch of a run -/

section Branch

variable {elements : List Element} {place : RailPlace} {position : Nat} {opened : List BranchId}
  {id : BranchId} {first rest : RailTree} {further : FurtherRails}
  (isRun : IsRunAt elements position opened
    ((RailTree.branch id first further rest).elements place position))

include isRun

theorem IsRunAt.hasBranch : HasBranch elements id position
    (position + 1 + first.drafts.length + further.drafts.length) := by
  obtain ⟨_, _, atEnd, _⟩ := isRun.branch_parts
  exact ⟨isRun.getElem?_drafts, atEnd.getElem?_drafts⟩

variable (nested : WellNested (drafts elements))

include nested

/-- The branches around a branch are those that are open before it. -/
theorem IsRunAt.branchesAcross_branch :
    branchesAcross (drafts elements) position
      (position + 1 + first.drafts.length + further.drafts.length + 1) = opened.reverse := by
  have cut : (RailTree.branch id first further rest).elements place position =
      (RailTree.branch id first further .nil).elements place position ++
        rest.elements place
          (position + 1 + first.drafts.length + further.drafts.length + 1) := by
    simp only [RailTree.elements, List.cons_append, List.append_assoc, List.nil_append]
  rw [cut] at isRun
  have across := isRun.left_part.branchesAcross_eq nested
    (by rw [RailTree.drafts_elements, RailTree.branchesAfter?_drafts])
  have behind : position + (RailTree.branch id first further .nil).drafts.length =
      position + 1 + first.drafts.length + further.drafts.length + 1 := by
    simp only [RailTree.drafts, List.length_cons, List.length_append, List.length_nil]
    omega
  rw [RailTree.length_elements, behind] at across
  exact across

/-- The further rails of a branch are those that its tree holds. -/
theorem IsRunAt.furtherRails_eq : furtherRails elements id = further.ids := by
  have has := isRun.hasBranch
  obtain ⟨inFirst, inFurther, _, _⟩ := isRun.branch_parts
  obtain ⟨before, after, split, rfl, _⟩ := isRun
  let next := before.length + 1 + first.drafts.length
  let close := next + further.drafts.length
  let starts := place.element before.length (.branchStart id)
  let behind := place.element close (.branchEnd id) :: rest.elements place (close + 1) ++ after
  have cut : elements = before ++ (starts ::
      (first.elements (place.inside id) (before.length + 1) ++
        (further.elements (place.inside id) next ++ behind))) := by
    rw [split]
    simp only [RailTree.elements, List.cons_append, List.append_assoc]
    rfl
  have notFirst : Draft.branchStart id ∉ first.drafts :=
    first.drafts_elements _ _ ▸ has.branchStart_not_mem nested inFirst (Nat.lt_succ_self _)
  have notFurther : Draft.branchStart id ∉ further.drafts :=
    further.drafts_elements _ _ ▸ has.branchStart_not_mem nested inFurther.left_part (by omega)
  have inBefore : furtherRailsIn (drafts elements) id 0 before = [] :=
    furtherRailsIn_eq_nil fun other _ bound around => by
      have between := has.between_of_branchAround? nested around
      omega
  have inBehind : furtherRailsIn (drafts elements) id close behind = [] :=
    furtherRailsIn_eq_nil fun other least _ around => by
      have between := has.between_of_branchAround? nested around
      omega
  calc furtherRailsIn (drafts elements) id 0 elements
      = furtherRailsIn (drafts elements) id 0 (before ++ (starts ::
          (first.elements (place.inside id) (before.length + 1) ++
            (further.elements (place.inside id) next ++ behind)))) := congrArg _ cut
    _ = further.ids := by
      rw [furtherRailsIn_append, furtherRailsIn_cons, furtherRailsIn_append, Nat.zero_add,
        first.length_elements, furtherRailsIn_append, further.length_elements, inBefore, inBehind,
        first.furtherRailsIn_elements nested _ _ _ inFirst notFirst,
        further.furtherRailsIn_elements nested _ _ _ _ inFurther notFurther, if_pos rfl,
        List.append_nil]
      rfl

end Branch

/-! ### Records -/

section Records

variable {config : LayoutConfig Rat} {input : RungInput Rat} {elements : List Element}

/-- The record of a branch of a tree says of it what the sequence says. -/
theorem RailSite.branchRecord_isOfStart (nested : WellNested (drafts elements)) {site : RailSite}
    {position : Nat} {opened : List BranchId} (level : site.level = opened.length) {id : BranchId}
    {first rest : RailTree} {further : FurtherRails} (startX : Rat)
    (isRun : IsRunAt elements position opened
      ((RailTree.branch id first further rest).elements site.toRailPlace position)) :
    (site.branchRecord config input position id startX first further).IsOfStart elements
      (site.element position (.branchStart id)) position
      (position + 1 + first.drafts.length + further.drafts.length) where
  stands := isRun.getElem?_eq
  starts := rfl
  ends := isRun.hasBranch.findBranchEnd_eq nested
  startPosition := rfl
  endPosition := rfl
  level := by
    rw [isRun.branchesAcross_branch nested, List.length_reverse, ← level]
    rfl
  root := rfl
  parent := rfl
  children := (isRun.furtherRails_eq nested).symm

/-- Behind the further rails of a branch, as behind its first one, a marker ends the rail. -/
theorem FurtherRails.exists_endsRail (rails : FurtherRails) (place : RailPlace) (position : Nat)
    {ends : Element} (isEnd : ends.draft.EndsRail) (after : List Element) :
    ∃ ender more, rails.elements place position ++ ends :: after = ender :: more ∧
      ender.draft.EndsRail := by
  cases rails with
  | nil => exact ⟨ends, after, rfl, isEnd⟩
  | rail id own others => exact ⟨_, _, rfl, Or.inl rfl⟩

/-- A further rail spans what is on it. -/
theorem IsRunAt.spansRail {place : RailPlace} {position : Nat} {opened : List BranchId}
    {id : BranchId} {own : RailTree} {others : FurtherRails} {ends : Element}
    {after : List Element} (isEnd : ends.draft.EndsRail)
    (isRun : IsRunAt elements position opened
      ((FurtherRails.rail id own others).elements place position ++ ends :: after)) :
    SpansRail (drafts elements) id position (position + 1 + own.drafts.length) := by
  obtain ⟨before, behind, split, rfl, _⟩ := isRun
  obtain ⟨ender, more, begins, endsRail⟩ :=
    others.exists_endsRail place (before.length + 1 + own.drafts.length) isEnd after
  refine ⟨drafts before, drafts more ++ drafts behind, .branchNext id, ender.draft, own, ?_, rfl,
    endsRail, by rw [drafts, List.length_map], by rw [drafts, List.length_map]⟩
  have onRail := own.drafts_elements (place.beside id) (before.length + 1)
  rw [split, FurtherRails.elements, List.cons_append, List.append_assoc, begins, ← onRail]
  simp [drafts]
  rfl

/-- The record of a further rail says of it and of its branch what the sequence says. -/
theorem Branch.railRecord_isOfNext (nested : WellNested (drafts elements)) {branch : Branch Rat}
    {site : RailSite} (root : site.rootId = some branch.rootId) {start finish : Nat}
    (has : HasBranch elements branch.id start finish)
    (level : branch.branchLevel =
      .ofNat (branchesAcross (drafts elements) start (finish + 1)).length)
    {position : Nat} {outer : List BranchId} {id : BranchId} {own : RailTree}
    {others : FurtherRails} {ends : Element} {after : List Element}
    (isEnd : ends.draft.EndsRail)
    (isRun : IsRunAt elements position (branch.id :: outer)
      ((FurtherRails.rail id own others).elements site.toRailPlace position ++ ends :: after)) :
    (branch.railRecord config input position id site.row own).IsOfNext elements
      ((site.toRailPlace.beside id).element position (.branchNext id)) position
      (position + 1 + own.drafts.length) start finish branch.id where
  stands := isRun.getElem?_eq
  opens := rfl
  ends := (isRun.spansRail isEnd).findRailEnd_eq
  startPosition := rfl
  endPosition := by
    rw [Nat.add_right_comm]
    rfl
  around := isRun.branchAround?_eq nested rfl
  isBranch := has
  level := level
  root := root
  parent := rfl
  children := rfl

theorem railMarkers_append (first second : List Element) :
    railMarkers (first ++ second) = railMarkers first ++ railMarkers second :=
  List.filter_append first second

mutual

/-- The records of a rail are those of the markers on it, one for each in their order. -/
theorem RailTree.records_isOfMarker (nested : WellNested (drafts elements)) (site : RailSite)
    (position : Nat) (last : Option Rat) (opened : List BranchId)
    (level : site.level = opened.length) :
    ∀ tree : RailTree, IsRunAt elements position opened
        (tree.elements site.toRailPlace position) →
      List.Forall₂ (Branch.IsOfMarker elements) (tree.records config input site position last)
        (railMarkers (tree.elements site.toRailPlace position))
  | .nil, _ => .nil
  | .instruction content rest, isRun =>
      rest.records_isOfMarker nested site _ _ opened level (isRun.tail rfl)
  | .branch id first further rest, isRun => by
      let startX := config.itemX site.originX last
      have isOf : (site.branchRecord config input position id startX first further).IsOfStart
          elements _ _ _ := RailSite.branchRecord_isOfStart nested level startX isRun
      obtain ⟨inFirst, inFurther, _, inRest⟩ := isRun.branch_parts
      rw [RailTree.records, RailTree.elements]
      refine .cons (.start isOf) ?_
      change List.Forall₂ _ _ (railMarkers _)
      rw [railMarkers_append, railMarkers_append]
      refine List.rel_append
        (first.records_isOfMarker nested (site.inside id startX) _ _ (id :: opened)
          (congrArg (· + 1) level) inFirst)
        (List.rel_append
          (further.records_isOfMarker nested ((site.inside id startX).lowered first.rows) _ _
            opened (congrArg (· + 1) level) rfl isRun.hasBranch isOf.level (Or.inr rfl) inFurther)
          (rest.records_isOfMarker nested site _ _ opened level inRest))

/-- The records of the further rails of a branch are those of the markers on them. -/
theorem FurtherRails.records_isOfMarker (nested : WellNested (drafts elements)) (site : RailSite)
    (branch : Branch Rat) (position : Nat) (outer : List BranchId)
    (inside : site.level = outer.length + 1) (root : site.rootId = some branch.rootId)
    {start finish : Nat} (has : HasBranch elements branch.id start finish)
    (level : branch.branchLevel =
      .ofNat (branchesAcross (drafts elements) start (finish + 1)).length)
    {ends : Element} (isEnd : ends.draft.EndsRail) {after : List Element} :
    ∀ rails : FurtherRails, IsRunAt elements position (branch.id :: outer)
        (rails.elements site.toRailPlace position ++ ends :: after) →
      List.Forall₂ (Branch.IsOfMarker elements)
        (rails.records config input site branch position)
        (railMarkers (rails.elements site.toRailPlace position))
  | .nil, _ => .nil
  | .rail id own others, isRun => by
      have isOf : (branch.railRecord config input position id site.row own).IsOfNext
          elements _ _ _ _ _ _ := Branch.railRecord_isOfNext nested root has level isEnd isRun
      obtain ⟨inOwn, inOthers⟩ := isRun.rail_parts
      rw [FurtherRails.records, FurtherRails.elements]
      refine .cons (.next isOf) ?_
      change List.Forall₂ _ _ (railMarkers _)
      rw [railMarkers_append]
      exact List.rel_append
        (own.records_isOfMarker nested (site.beside id) _ _ (branch.id :: outer) inside inOwn)
        (others.records_isOfMarker nested (site.lowered own.rows) branch _ outer inside root has
          level isEnd inOthers)

end

end Records

/-! ### Layouts -/

/-- What a record says of a marker is in its shape. -/
theorem Branch.isOfMarker_shape {α : Type} {elements : List Element} {record : Branch α}
    {marker : Element} :
    record.shape.IsOfMarker elements marker ↔ record.IsOfMarker elements marker := by
  constructor
  · rintro (isOf | isOf)
    · exact .start { isOf with }
    · exact .next { isOf with }
  · rintro (isOf | isOf)
    · exact .start { isOf with }
    · exact .next { isOf with }

/-- Of two layouts with one shape both tell of a sequence what it says. -/
theorem LayoutResult.Matches.of_shape_eq {α β : Type} {layout : LayoutResult α}
    {other : LayoutResult β} {elements : List Element} (matched : other.Matches elements)
    (same : layout.shape = other.shape) : layout.Matches elements := by
  have placed := congrArg LayoutResult.elements same
  have branches := congrArg LayoutResult.branches same
  simp only [LayoutResult.shape] at placed branches
  refine ⟨?_, ?_, ?_, (congrArg LayoutResult.maxBranchDepth same).trans matched.depth⟩
  · have alike := congrArg (List.map LayoutElement.element) placed
    rw [List.map_map, List.map_map] at alike
    exact alike.trans matched.placed
  · have alike := congrArg (List.map LayoutElement.railId) placed
    rw [List.map_map, List.map_map] at alike
    exact alike.trans matched.rails
  · have shaped := (List.forall₂_map_left_iff (f := Branch.shape)).mpr
      (matched.records.imp fun _ _ => Branch.isOfMarker_shape.mpr)
    rw [← branches, List.forall₂_map_left_iff] at shaped
    exact shaped.imp fun _ _ => Branch.isOfMarker_shape.mp

/-- The standard layout of a tree tells of its sequence what the sequence says. -/
theorem RailTree.layout_matches (tree : RailTree) (nested : WellNested tree.drafts)
    (input : RungInput Rat) :
    (tree.layout .standard input).Matches (tree.elements .main 0) where
  placed := tree.map_element_placed _ _ _ _ _
  rails := by
    have placed : (tree.layout .standard input).elements.map LayoutElement.element =
        tree.elements .main 0 := tree.map_element_placed _ _ _ _ _
    rw [← placed, List.map_map]
    exact List.map_congr_left fun _ member => tree.railId_of_mem_placed _ _ _ member
  records := by
    refine tree.records_isOfMarker ?_ (.main _) 0 none [] rfl ⟨[], [], ?_, rfl, rfl⟩
    · rw [tree.drafts_elements]
      exact nested
    · rw [List.append_nil]
      rfl
  depth := tree.branchDepth_elements.symm

/--
Whatever sequence has been annotated, its layout succeeds, in any numbers and over any arena,
and it tells of the sequence what the sequence says.
-/
theorem layoutRung_matches_sequence {α : Type} [Scalar α] (config : LayoutConfig α)
    (input : RungInput α) (source : List Draft)
    (annotates : annotate source = .ok input.elements) :
    ∃ layout : LayoutResult α,
      (∀ arena, layoutRung config arena input =
        .ok (layout, arena.replaceRung input.rungNumber layout.branches)) ∧
      layout.Matches input.elements := by
  have nested := wellNested_of_annotate annotates
  obtain ⟨layout, isOf⟩ := exists_isOf config input
    (by rw [drafts_of_annotate annotates]; exact nested)
  let twin : RungInput Rat := ⟨input.rungNumber, 0, input.elements, 0⟩
  have alike : input.shape = twin.shape := rfl
  obtain ⟨tree, rfl, annotated, same⟩ := isOf.exists_tree annotates alike
  refine ⟨layout, isOf.laidOut, ?_⟩
  rw [annotated]
  exact ((tree.layout_matches nested twin).of_shape_eq same)

/-- A branch with a further rail and on its first one another such branch. -/
def branchInBranch : RailTree :=
  .branch (.ofNat 0) (.branch (.ofNat 1) .nil (.rail (.ofNat 2) .nil .nil) .nil)
    (.rail (.ofNat 3) .nil .nil) .nil

theorem layoutRung_matches_sequence_of_sample :
    ∃ elements, annotate branchInBranch.drafts = .ok elements ∧
      ∃ (layout : LayoutResult Rat) (arena : Arena Rat),
        layoutRung .standard .empty ⟨.ofNat 0, 50, elements, 0⟩ = .ok (layout, arena) ∧
          layout.branches.length = 4 ∧ layout.maxBranchDepth = .ofNat 2 := by
  obtain ⟨elements, annotates⟩ : ∃ elements, annotate branchInBranch.drafts = .ok elements :=
    ⟨_, rfl⟩
  obtain ⟨layout, laidOut, matched⟩ := layoutRung_matches_sequence
    (.standard : LayoutConfig Rat) ⟨.ofNat 0, 50, elements, 0⟩ branchInBranch.drafts annotates
  obtain rfl : branchInBranch.elements .main 0 = elements := (elements_of_annotate annotates).symm
  exact ⟨_, annotates, layout, _, laidOut .empty, matched.records.length_eq, matched.depth⟩

end LadderDiagram
