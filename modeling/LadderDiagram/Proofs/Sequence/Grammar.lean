import LadderDiagram.Proofs.Sequence.Enclosing

/-!
# Annotation and the grammar

Annotation accepts the lists of drafts that derive from the grammar with distinct handles, and
what it writes into an element is what the markers around the element say: how many branches
have begun before it and end behind it, which rail is the innermost around it, and which branch
is the outermost that it stands in, begins or ends.
-/

namespace LadderDiagram

/-- The handle of the branch that a marker starts. -/
def Draft.startedBranch? : Draft → Option BranchId
  | .branchStart id => some id
  | _ => none

/-- The handles of the branches that a run of drafts starts, in order. -/
def startedIds (drafts : List Draft) : List BranchId := drafts.filterMap Draft.startedBranch?

/--
The branches with their start marker before one gap and their end marker behind another, the
outermost first.
-/
def branchesAcross (source : List Draft) (before behind : Nat) : List BranchId :=
  (startedIds (source.take before)).filter fun id =>
    decide (Draft.branchEnd id ∈ source.drop behind)

/-- The innermost branch around a place of a list of drafts. -/
def branchAround? (source : List Draft) (place : Nat) : Option BranchId :=
  (branchesAcross source place (place + 1)).getLast?

/-- The rail on which the element at a place stands; a next marker is on the one it opens. -/
inductive StandsOn (source : List Draft) (place : Nat) : Option BranchId → Prop
  | opened {id : BranchId} (isNext : source[place]? = some (.branchNext id)) :
      StandsOn source place (some id)
  | inside {rail : Option BranchId} (other : ∀ id, source[place]? ≠ some (.branchNext id))
      (innermost : IsInnermost source (fun start finish => start < place ∧ place < finish) rail) :
      StandsOn source place rail

/-- An element says of its place in a sequence what the markers around it say. -/
structure Element.Describes (element : Element) (source : List Draft) (place : Nat) : Prop where
  draft : source[place]? = some element.draft
  position : element.position = .ofNat place
  level : element.branchLevel = .ofNat (branchesAcross source place (place + 1)).length
  rail : ∀ rail, StandsOn source place rail ↔ element.railId = rail
  root : element.rootBranchId = (branchesAcross source (place + 1) place).head?
  id : element.branchId = element.draft.markerId?.or element.railId

/-! ### Failures -/

namespace WalkState

theorem code_of_claim {state : WalkState} {id : BranchId} {error : LadderError}
    (fails : state.claim id = .error error) : error.code = .unbalancedBranch := by
  unfold claim at fails
  split at fails
  next =>
    cases fails
    rfl
  next => cases fails

theorem code_of_step {state : WalkState} {draft : Draft} {error : LadderError}
    (fails : state.step draft = .error error) : error.code = .unbalancedBranch := by
  cases draft with
  | instruction content => cases fails
  | branchStart id =>
      simp only [step] at fails
      split at fails
      next claims =>
        cases fails
        exact code_of_claim claims
      next => cases fails
  | branchNext id =>
      simp only [step] at fails
      split at fails
      next =>
        cases fails
        rfl
      next =>
        split at fails
        next claims =>
          cases fails
          exact code_of_claim claims
        next => cases fails
  | branchEnd id =>
      simp only [step] at fails
      split at fails
      next =>
        cases fails
        rfl
      next =>
        split at fails
        next => cases fails
        next =>
          cases fails
          rfl

theorem code_of_walk {state : WalkState} {source : List Draft} {error : LadderError}
    (fails : state.walk source = .error error) : error.code = .unbalancedBranch := by
  induction source generalizing state with
  | nil =>
      unfold walk at fails
      split at fails
      next => cases fails
      next =>
        cases fails
        rfl
  | cons draft rest ih =>
      unfold walk at fails
      split at fails
      next steps =>
        cases fails
        exact code_of_step steps
      next =>
        split at fails
        next walksOn =>
          cases fails
          exact ih walksOn
        next => cases fails

end WalkState

/-! ### Branches -/

@[simp] theorem startedIds_append (first second : List Draft) :
    startedIds (first ++ second) = startedIds first ++ startedIds second :=
  List.filterMap_append

theorem startedIds_sublist (drafts : List Draft) :
    (startedIds drafts).Sublist (openedIds drafts) := by
  induction drafts with
  | nil => exact List.Sublist.refl _
  | cons draft rest ih =>
      cases draft with
      | instruction content => exact ih
      | branchStart id => exact ih.cons_cons id
      | branchNext id => exact ih.cons id
      | branchEnd id => exact ih

/-- The open branches have been started in the order in which they lie around each other. -/
theorem reverse_sublist_startedIds {drafts : List Draft} {opened left : List BranchId}
    (pairsUp : branchesAfter? opened drafts = some left) :
    left.reverse.Sublist (opened.reverse ++ startedIds drafts) := by
  induction drafts generalizing opened with
  | nil =>
      cases pairsUp
      exact List.sublist_append_left _ _
  | cons draft rest ih =>
      cases draft with
      | instruction content => exact ih pairsUp
      | branchStart id =>
          have later := @ih (id :: opened) pairsUp
          rw [List.reverse_cons, List.append_assoc] at later
          exact later
      | branchNext id =>
          obtain ⟨innermost, outer, rfl, restPairsUp⟩ :=
            exists_of_branchesAfter?_branchNext pairsUp
          exact ih restPairsUp
      | branchEnd id =>
          obtain ⟨outer, rfl, restPairsUp⟩ := exists_of_branchesAfter?_branchEnd pairsUp
          refine (ih restPairsUp).trans (List.Sublist.append_right ?_ _)
          rw [List.reverse_cons]
          exact List.sublist_append_left _ _

/-- The members of a part of a list without repetition are that part. -/
theorem filter_mem_of_sublist {part whole : List BranchId} (isPart : part.Sublist whole)
    (distinct : whole.Nodup) : whole.filter (fun id => decide (id ∈ part)) = part := by
  have kept : part.Sublist (whole.filter fun id => decide (id ∈ part)) := by
    have filtered := isPart.filter fun id => decide (id ∈ part)
    rwa [List.filter_eq_self.mpr fun id member => decide_eq_true member] at filtered
  refine (kept.eq_of_length_le (List.Subperm.length_le ?_)).symm
  refine List.subperm_of_subset (distinct.filter _) fun id member => ?_
  exact of_decide_eq_true (List.mem_filter.mp member).2

/-- The end marker of a branch does not carry the handle of a further rail. -/
theorem WellNested.branchEnd_not_mem {source : List Draft} (nested : WellNested source)
    {id : BranchId} (opens : Draft.branchNext id ∈ source) : Draft.branchEnd id ∉ source := by
  intro ends
  have counted := branchesAfter?_count nested.closes id
  have positive := List.count_pos_iff.mpr ends
  rw [List.count_nil] at counted
  have starts : Draft.branchStart id ∈ source := List.count_pos_iff.mp (by omega)
  cases eq_of_nodup_filterMap nested.distinct starts opens rfl rfl

theorem filter_openedIds {drafts : List Draft} {kept : BranchId → Bool}
    (notFurther : ∀ id, Draft.branchNext id ∈ drafts → kept id = false) :
    (openedIds drafts).filter kept = (startedIds drafts).filter kept := by
  induction drafts with
  | nil => rfl
  | cons draft rest ih =>
      have later := ih fun id member => notFurther id (List.mem_cons_of_mem _ member)
      cases draft with
      | instruction content => exact later
      | branchStart id =>
          change (id :: openedIds rest).filter kept = (id :: startedIds rest).filter kept
          rw [List.filter_cons, List.filter_cons, later]
      | branchNext id =>
          change (id :: openedIds rest).filter kept = (startedIds rest).filter kept
          rw [List.filter_cons_of_neg (by simp [notFurther id List.mem_cons_self]), later]
      | branchEnd id => exact later

/-- Of the branches started in one part of a list, those that end in the other are still open. -/
theorem filter_startedIds_eq {first last : List Draft} {opened : List BranchId}
    (before : branchesAfter? [] first = some opened)
    (closes : branchesAfter? opened last = some []) (distinct : (openedIds first).Nodup)
    (apart : ∀ id ∈ openedIds first, ∀ other ∈ openedIds last, id ≠ other) :
    (startedIds first).filter (fun id => decide (Draft.branchEnd id ∈ last)) = opened.reverse := by
  have isOpen : ∀ id ∈ startedIds first,
      decide (Draft.branchEnd id ∈ last) = decide (id ∈ opened.reverse) := by
    intro id member
    have isOpened := (startedIds_sublist first).subset member
    rw [decide_eq_decide, List.mem_reverse]
    exact branchEnd_mem_iff closes fun later => apart id isOpened id later rfl
  rw [List.filter_congr isOpen]
  exact filter_mem_of_sublist (reverse_sublist_startedIds before)
    ((startedIds_sublist first).nodup distinct)

section Across

variable {first rest : List Draft} {draft : Draft}
  (nested : WellNested (first ++ draft :: rest))
include nested

theorem branchesAround_eq :
    branchesAround (first ++ draft :: rest) first.length =
      branchesAcross (first ++ draft :: rest) first.length (first.length + 1) := by
  refine filter_openedIds fun id member => decide_eq_false fun ends => ?_
  exact nested.branchEnd_not_mem (List.mem_of_mem_take member) (List.mem_of_mem_drop ends)

/-- The branches that an element stands in, begins or ends, from those open before it. -/
theorem branchesAcross_eq {opened : List BranchId}
    (before : branchesAfter? [] first = some opened) :
    branchesAcross (first ++ draft :: rest) (first.length + 1) first.length =
      opened.reverse ++ draft.startedBranch?.toList := by
  have closes := nested.closes
  rw [branchesAfter?_append, before, Option.bind_some] at closes
  have distinct := nested.distinct
  rw [openedIds_append, List.nodup_append] at distinct
  obtain ⟨firstDistinct, restDistinct, apart⟩ := distinct
  have upTo : (first ++ draft :: rest).take (first.length + 1) = first ++ [draft] := by
    rw [List.take_length_add_append]
    rfl
  have own : startedIds [draft] = draft.startedBranch?.toList := by
    cases draft <;> rfl
  unfold branchesAcross
  rw [upTo, List.drop_left, startedIds_append, List.filter_append, own]
  congr 1
  · exact filter_startedIds_eq before closes firstDistinct apart
  · refine List.filter_eq_self.mpr fun id member => decide_eq_true ?_
    cases draft with
    | branchStart own =>
        obtain rfl := List.mem_singleton.mp member
        have once : id ∉ openedIds rest := (List.nodup_cons.mp restDistinct).1
        have closesInside : branchesAfter? (id :: opened) rest = some [] := closes
        exact List.mem_cons_of_mem _
          ((branchEnd_mem_iff closesInside once).mpr List.mem_cons_self)
    | instruction content => cases member
    | branchNext own => cases member
    | branchEnd own => cases member

end Across

/-- The branches around a run that leaves none of its own open are those open before it. -/
theorem branchesAcross_of_closed {first block last : List Draft} {opened : List BranchId}
    (nested : WellNested (first ++ (block ++ last)))
    (before : branchesAfter? [] first = some opened)
    (closed : branchesAfter? opened block = some opened) :
    branchesAcross (first ++ (block ++ last)) first.length (first.length + block.length) =
      opened.reverse := by
  have closes := nested.closes
  rw [branchesAfter?_append, before, Option.bind_some, branchesAfter?_append, closed,
    Option.bind_some] at closes
  have distinct := nested.distinct
  rw [openedIds_append, openedIds_append, List.nodup_append] at distinct
  obtain ⟨firstDistinct, _, apart⟩ := distinct
  unfold branchesAcross
  rw [List.take_left, List.drop_length_add_append, List.drop_left]
  exact filter_startedIds_eq before closes firstDistinct fun id isOpened other later =>
    apart id isOpened other (List.mem_append_right _ later)

/-- The innermost branch around a place has begun before it and ends behind it. -/
theorem mem_of_branchAround? {source : List Draft} {place : Nat} {branch : BranchId}
    (around : branchAround? source place = some branch) :
    Draft.branchStart branch ∈ source.take place ∧
      Draft.branchEnd branch ∈ source.drop (place + 1) := by
  have member := List.mem_of_getLast? around
  unfold branchesAcross at member
  obtain ⟨starts, ends⟩ := List.mem_filter.mp member
  refine ⟨?_, of_decide_eq_true ends⟩
  obtain ⟨draft, isDraft, started⟩ := List.mem_filterMap.mp starts
  cases draft with
  | branchStart id =>
      obtain rfl := Option.some.inj started
      exact isDraft
  | instruction content => cases started
  | branchNext id => cases started
  | branchEnd id => cases started

/-! ### Elements -/

namespace WalkState

variable {state next : WalkState} {draft : Draft} {element : Element}

theorem rootId_eq (state : WalkState) : state.rootId = state.openIds.getLast? := by
  unfold rootId openIds
  rw [List.getLast?_map]

theorem rootBranchId_of_step (steps : state.step draft = .ok (element, next)) :
    element.rootBranchId = state.openIds.getLast?.or draft.startedBranch? := by
  rw [← rootId_eq]
  cases stepsTo_of_step steps with
  | instruction content => exact Option.or_none.symm
  | @branchStart id free =>
      change some (state.rootId.getD id) = state.rootId.or (some id)
      cases state.rootId <;> rfl
  | branchNext opened free => exact Option.or_none.symm
  | @branchEnd id frame outer opened same =>
      rw [rootId, opened, List.getLast?_cons]
      change some ((outer.getLast?.map (·.branchId)).getD id) = _
      cases outer.getLast? with
      | none => rw [← same]; rfl
      | some last => rfl

theorem branchId_of_step (steps : state.step draft = .ok (element, next)) :
    element.branchId = element.draft.markerId?.or element.railId := by
  cases stepsTo_of_step steps <;> rfl

end WalkState

theorem StandsOn.unique {source : List Draft} {place : Nat} {rail other : Option BranchId}
    (stands : StandsOn source place rail) (standsToo : StandsOn source place other) :
    rail = other := by
  cases stands with
  | opened isNext =>
      cases standsToo with
      | opened isNextToo =>
          cases isNext.symm.trans isNextToo
          rfl
      | inside others _ => exact absurd isNext (others _)
  | inside others innermost =>
      cases standsToo with
      | opened isNext => exact absurd isNext (others _)
      | inside _ innermostToo => exact innermost.unique innermostToo

section Annotated

variable {first rest : List Draft} {draft : Draft} {elements : List Element}
  (annotates : annotate (first ++ draft :: rest) = .ok elements)
include annotates

/-- An element that ends no rail stands on the rail of the gap before it. -/
theorem standsOn_railAfter_before (goesOn : ¬ draft.EndsRail) :
    StandsOn (first ++ draft :: rest) first.length (railAfter first) := by
  have here := getElem?_append_length first rest draft
  refine .inside (fun id isNext => goesOn ?_) ((isInnermost_railAfter annotates).congr ?_)
  · cases here.symm.trans isNext
    exact Or.inl rfl
  · intro id start finish spans
    refine and_congr_right fun _ => ⟨fun upTo => Nat.lt_of_le_of_ne upTo ?_, Nat.le_of_lt⟩
    rintro rfl
    obtain ⟨ender, atEnd, ends⟩ := spans.ends
    cases here.symm.trans atEnd
    exact goesOn ends

/-- An element that opens no rail stands on the rail of the gap behind it. -/
theorem standsOn_railAfter_behind (opensNone : draft.openedRail? = none) :
    StandsOn (first ++ draft :: rest) first.length (railAfter (first ++ [draft])) := by
  have here := getElem?_append_length first rest draft
  have annotatesToo : annotate (first ++ [draft] ++ rest) = .ok elements := by
    rw [List.append_assoc]
    exact annotates
  have innermost := isInnermost_railAfter annotatesToo
  rw [List.append_assoc, List.length_append, List.length_singleton] at innermost
  refine .inside (fun id isNext => ?_) (innermost.congr ?_)
  · cases here.symm.trans isNext
    cases opensNone
  · intro id start finish spans
    refine and_congr_left fun _ => ⟨fun upTo => ?_, Nat.lt_succ_of_lt⟩
    refine Nat.lt_of_le_of_ne (Nat.le_of_lt_succ upTo) ?_
    rintro rfl
    obtain ⟨opener, atStart, opens⟩ := spans.opens
    cases here.symm.trans atStart
    cases opensNone.symm.trans opens

/-- The rail that a step writes into its element is the one on which the element stands. -/
theorem standsOn_of_step {own : List Element} {state next : WalkState} {element : Element}
    (passes : WalkState.start.Passes first own state)
    (steps : state.step draft = .ok (element, next)) :
    StandsOn (first ++ draft :: rest) first.length element.railId := by
  have before : railAfter first = state.railId := by
    rw [railAfter, WalkState.railId, passes.frames_eq]
    rfl
  have behind : railAfter (first ++ [draft]) = next.railId := by
    rw [railAfter, WalkState.railId, WalkState.frames_of_step steps, passes.frames_eq,
      framesAfter_append]
    rfl
  cases WalkState.stepsTo_of_step steps with
  | instruction content =>
      rw [WalkState.instructionElement, ← before]
      exact standsOn_railAfter_before annotates (by simp [Draft.EndsRail, Draft.kind])
  | branchStart free =>
      rw [WalkState.startElement, ← before]
      exact standsOn_railAfter_before annotates (by simp [Draft.EndsRail, Draft.kind])
  | branchNext opened free => exact .opened (getElem?_append_length first rest _)
  | branchEnd opened same =>
      have stands := standsOn_railAfter_behind annotates rfl
      rw [behind] at stands
      exact stands

end Annotated

/-- An element of an annotated sequence says of its place what the markers around it say. -/
theorem describes_of_annotate {source : List Draft} {elements : List Element}
    (annotates : annotate source = .ok elements) {place : Nat} {element : Element}
    (stands : elements[place]? = some element) : element.Describes source place := by
  have nested := wellNested_of_annotate annotates
  have level := branchLevel_of_annotate annotates stands
  have position := position_of_annotate annotates stands
  have holds := draft_of_annotate annotates stands
  obtain ⟨first, rest, rfl, rfl⟩ := exists_split_at_place holds
  obtain ⟨own, others, state, passes, walksOn, rfl, _⟩ := exists_passes_of_annotate annotates
  obtain ⟨element', next, more, steps, _, rfl⟩ := WalkState.exists_of_walk_cons walksOn
  obtain rfl : element' = element := by
    rw [← passes.length_eq, getElem?_append_length] at stands
    exact Option.some.inj stands
  refine ⟨holds, position, ?_, fun rail => ⟨fun standsOn => ?_, ?_⟩, ?_,
    WalkState.branchId_of_step steps⟩
  · rw [level, branchesAround_eq nested]
  · exact (standsOn_of_step annotates passes steps).unique standsOn
  · rintro rfl
    exact standsOn_of_step annotates passes steps
  · rw [WalkState.rootBranchId_of_step steps,
      branchesAcross_eq nested passes.branchesAfter?_eq, List.head?_append, List.head?_reverse]
    cases element'.draft.startedBranch? <;> rfl

/--
Annotation accepts exactly the lists of drafts that derive from the grammar and open every rail
under a handle of its own, it finds the others unbalanced, and in what it gives for a list each
element holds its draft and says of its place what the markers around it say.
-/
theorem annotate_iff_isSequence (source : List Draft) :
    ((∃ elements, annotate source = .ok elements) ↔
      IsSequence source ∧ (openedIds source).Nodup) ∧
    (∀ error, annotate source = .error error → error.code = .unbalancedBranch) ∧
    ∀ elements, annotate source = .ok elements → drafts elements = source ∧
      ∀ (place : Nat) (element : Element), elements[place]? = some element →
        element.Describes source place := by
  refine ⟨?_, fun error fails => WalkState.code_of_walk fails, fun elements annotates =>
    ⟨drafts_of_annotate annotates, fun place element stands =>
      describes_of_annotate annotates stands⟩⟩
  rw [exists_annotate_iff, isSequence_iff]
  exact ⟨fun nested => ⟨nested.closes, nested.distinct⟩, fun both => ⟨both.1, both.2⟩⟩

/-- Two branches that stand apart cannot share a handle either. -/
example : annotate [.branchStart (.ofNat 0), .branchEnd (.ofNat 0), .branchStart (.ofNat 0),
    .branchEnd (.ofNat 0)] = .error (.unbalanced (.repeatedId (.ofNat 0) (.ofNat 2))) := rfl

end LadderDiagram
