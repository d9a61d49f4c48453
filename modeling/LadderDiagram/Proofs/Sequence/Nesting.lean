import LadderDiagram.Sequence.Query
import LadderDiagram.Proofs.List

/-!
# Nested markers

The annotation of a sequence keeps, for every open branch, the rail that is
current in it.  Whether the markers of a run of drafts pair up depends on less:
only on the branches that are open before it.  Here that part of the walk is
made a function of its own, which can be cut at any gap, and annotation is shown
to succeed exactly when this function ends with no branch open and no handle is
taken twice.
-/

namespace LadderDiagram

@[simp] theorem drafts_getElem? (elements : List Element) (place : Nat) :
    (drafts elements)[place]? = elements[place]?.map Element.draft :=
  List.getElem?_map

@[simp] theorem length_drafts (elements : List Element) :
    (drafts elements).length = elements.length :=
  List.length_map _

theorem drafts_append (first second : List Element) :
    drafts (first ++ second) = drafts first ++ drafts second := List.map_append

/-- The handles of the rails that a run of drafts opens, in order. -/
def openedIds (drafts : List Draft) : List BranchId := drafts.filterMap Draft.openedRail?

/--
The branches that are open after one draft, innermost first; none if it is a
marker that does not pair up with those open before it.
-/
def branchesAfterDraft? (opened : List BranchId) : Draft → Option (List BranchId)
  | .instruction _ => some opened
  | .branchStart id => some (id :: opened)
  | .branchNext _ =>
      match opened with
      | [] => none
      | innermost :: outer => some (innermost :: outer)
  | .branchEnd id =>
      match opened with
      | [] => none
      | innermost :: outer => if innermost = id then some outer else none

/-- The branches that are open after a run of drafts. -/
def branchesAfter? (opened : List BranchId) (drafts : List Draft) : Option (List BranchId) :=
  drafts.foldlM branchesAfterDraft? opened

/-- Every marker of a list of drafts pairs up, and no handle is taken twice. -/
structure WellNested (drafts : List Draft) : Prop where
  closes : branchesAfter? [] drafts = some []
  distinct : (openedIds drafts).Nodup

section Runs

@[simp] theorem openedIds_nil : openedIds [] = [] := rfl

@[simp] theorem openedIds_append (first second : List Draft) :
    openedIds (first ++ second) = openedIds first ++ openedIds second :=
  List.filterMap_append

@[simp] theorem openedIds_instruction (content : Instruction) (rest : List Draft) :
    openedIds (.instruction content :: rest) = openedIds rest := rfl

@[simp] theorem openedIds_branchStart (id : BranchId) (rest : List Draft) :
    openedIds (.branchStart id :: rest) = id :: openedIds rest := rfl

@[simp] theorem openedIds_branchNext (id : BranchId) (rest : List Draft) :
    openedIds (.branchNext id :: rest) = id :: openedIds rest := rfl

@[simp] theorem openedIds_branchEnd (id : BranchId) (rest : List Draft) :
    openedIds (.branchEnd id :: rest) = openedIds rest := rfl

theorem mem_openedIds {id : BranchId} {drafts : List Draft} :
    id ∈ openedIds drafts ↔ .branchStart id ∈ drafts ∨ .branchNext id ∈ drafts := by
  unfold openedIds
  rw [List.mem_filterMap]
  constructor
  · rintro ⟨draft, member, opens⟩
    cases draft with
    | instruction content => cases opens
    | branchStart own => cases opens; exact Or.inl member
    | branchNext own => cases opens; exact Or.inr member
    | branchEnd own => cases opens
  · rintro (member | member)
    · exact ⟨_, member, rfl⟩
    · exact ⟨_, member, rfl⟩

/-- A sequence has the rails that its drafts open. -/
theorem hasRail_iff {elements : List Element} {id : BranchId} :
    hasRail elements id = true ↔ id ∈ openedIds (drafts elements) := by
  unfold hasRail openedIds drafts
  rw [List.any_eq_true, List.filterMap_map, List.mem_filterMap]
  simp only [beq_iff_eq]
  rfl

variable {opened : List BranchId}

@[simp] theorem branchesAfter?_nil : branchesAfter? opened [] = some opened := rfl

theorem branchesAfter?_cons (draft : Draft) (rest : List Draft) :
    branchesAfter? opened (draft :: rest) =
      (branchesAfterDraft? opened draft).bind (branchesAfter? · rest) := rfl

theorem branchesAfter?_append (first second : List Draft) :
    branchesAfter? opened (first ++ second) =
      (branchesAfter? opened first).bind (branchesAfter? · second) :=
  List.foldlM_append

@[simp] theorem branchesAfter?_instruction (content : Instruction) (rest : List Draft) :
    branchesAfter? opened (.instruction content :: rest) = branchesAfter? opened rest := rfl

@[simp] theorem branchesAfter?_branchStart (id : BranchId) (rest : List Draft) :
    branchesAfter? opened (.branchStart id :: rest) = branchesAfter? (id :: opened) rest := rfl

@[simp] theorem branchesAfter?_branchNext (innermost id : BranchId) (rest : List Draft) :
    branchesAfter? (innermost :: opened) (.branchNext id :: rest) =
      branchesAfter? (innermost :: opened) rest := rfl

theorem branchesAfter?_branchEnd (id : BranchId) (rest : List Draft) :
    branchesAfter? (id :: opened) (.branchEnd id :: rest) = branchesAfter? opened rest := by
  rw [branchesAfter?_cons]
  simp [branchesAfterDraft?]

/-- Only an open branch can be closed, and only by the marker with its handle. -/
theorem exists_of_branchesAfter?_branchEnd {id : BranchId} {rest : List Draft}
    {final : List BranchId}
    (pairsUp : branchesAfter? opened (.branchEnd id :: rest) = some final) :
    ∃ outer, opened = id :: outer ∧ branchesAfter? outer rest = some final := by
  rw [branchesAfter?_cons] at pairsUp
  cases opened with
  | nil => simp [branchesAfterDraft?] at pairsUp
  | cons innermost outer =>
      by_cases same : innermost = id
      · subst same
        refine ⟨outer, rfl, ?_⟩
        simpa [branchesAfterDraft?] using pairsUp
      · simp [branchesAfterDraft?, same] at pairsUp

/-- A further rail begins only inside a branch. -/
theorem exists_of_branchesAfter?_branchNext {id : BranchId} {rest : List Draft}
    {final : List BranchId}
    (pairsUp : branchesAfter? opened (.branchNext id :: rest) = some final) :
    ∃ innermost outer, opened = innermost :: outer ∧
      branchesAfter? (innermost :: outer) rest = some final := by
  cases opened with
  | nil => simp [branchesAfter?_cons, branchesAfterDraft?] at pairsUp
  | cons innermost outer => exact ⟨innermost, outer, rfl, pairsUp⟩

/-- What pairs up does so inside any further branches as well. -/
theorem branchesAfter?_under {drafts : List Draft} {final : List BranchId}
    (pairsUp : branchesAfter? opened drafts = some final) (outer : List BranchId) :
    branchesAfter? (opened ++ outer) drafts = some (final ++ outer) := by
  induction drafts generalizing opened with
  | nil =>
      cases pairsUp
      rfl
  | cons draft rest ih =>
      cases draft with
      | instruction content => exact ih pairsUp
      | branchStart id => exact ih pairsUp
      | branchNext id =>
          obtain ⟨innermost, further, rfl, restPairsUp⟩ :=
            exists_of_branchesAfter?_branchNext pairsUp
          exact ih restPairsUp
      | branchEnd id =>
          obtain ⟨further, rfl, restPairsUp⟩ := exists_of_branchesAfter?_branchEnd pairsUp
          rw [List.cons_append, branchesAfter?_branchEnd]
          exact ih restPairsUp

end Runs

/-! ### Annotation -/

namespace WalkState

/-- The open branches of a walk, innermost first. -/
def openIds (state : WalkState) : List BranchId := state.frames.map (·.branchId)

/-- One step of the walk, seen without rails: what it does to branches and handles. -/
structure Advances (state : WalkState) (draft : Draft) (element : Element)
    (next : WalkState) : Prop where
  draft_eq : element.draft = draft
  position_eq : element.position = .ofNat state.position
  next_position : next.position = state.position + 1
  branches : branchesAfterDraft? state.openIds draft = some next.openIds
  claimed : next.claimed = draft.openedRail?.toList ++ state.claimed
  free : ∀ id ∈ draft.openedRail?, id ∉ state.claimed

theorem claim_eq_ok_iff {state claimed : WalkState} {id : BranchId} :
    state.claim id = .ok claimed ↔
      id ∉ state.claimed ∧ claimed = { state with claimed := id :: state.claimed } := by
  unfold claim
  by_cases taken : id ∈ state.claimed
  · simp [taken]
  · simp [taken, eq_comm]

/-- What one step of the walk makes of a draft. -/
inductive StepsTo (state : WalkState) : Draft → Element → WalkState → Prop
  | instruction (content : Instruction) :
      StepsTo state (.instruction content) (state.instructionElement content)
        { state with position := state.position + 1 }
  | branchStart {id : BranchId} (free : id ∉ state.claimed) :
      StepsTo state (.branchStart id) (state.startElement id)
        { position := state.position + 1
          frames := ⟨id, id⟩ :: state.frames
          claimed := id :: state.claimed }
  | branchNext {id : BranchId} {frame : OpenFrame} {outer : List OpenFrame}
      (opened : state.frames = frame :: outer) (free : id ∉ state.claimed) :
      StepsTo state (.branchNext id) (state.nextElement id)
        { position := state.position + 1
          frames := { frame with railId := id } :: outer
          claimed := id :: state.claimed }
  | branchEnd {id : BranchId} {frame : OpenFrame} {outer : List OpenFrame}
      (opened : state.frames = frame :: outer) (same : frame.branchId = id) :
      StepsTo state (.branchEnd id) (state.endElement id outer)
        { state with position := state.position + 1, frames := outer }

theorem StepsTo.step_eq {state next : WalkState} {draft : Draft} {element : Element}
    (stepsTo : state.StepsTo draft element next) : state.step draft = .ok (element, next) := by
  cases stepsTo with
  | instruction content => rfl
  | branchStart free => rw [step, claim_eq_ok_iff.mpr ⟨free, rfl⟩]
  | branchNext opened free =>
      simp only [step, opened, claim_eq_ok_iff.mpr ⟨free, rfl⟩]
  | branchEnd opened same => simp only [step, opened, if_pos same]

theorem stepsTo_of_step {state next : WalkState} {draft : Draft} {element : Element}
    (steps : state.step draft = .ok (element, next)) : state.StepsTo draft element next := by
  cases draft with
  | instruction content =>
      cases steps
      exact .instruction content
  | branchStart id =>
      simp only [step] at steps
      split at steps
      next => cases steps
      next claims =>
        obtain ⟨free, rfl⟩ := claim_eq_ok_iff.mp claims
        cases steps
        exact .branchStart free
  | branchNext id =>
      simp only [step] at steps
      split at steps
      next => cases steps
      next opened =>
        split at steps
        next => cases steps
        next claims =>
          obtain ⟨free, rfl⟩ := claim_eq_ok_iff.mp claims
          cases steps
          exact .branchNext opened free
  | branchEnd id =>
      simp only [step] at steps
      split at steps
      next => cases steps
      next opened =>
        split at steps
        next same =>
          cases steps
          exact .branchEnd opened same
        next => cases steps

theorem advances_of_step {state next : WalkState} {draft : Draft} {element : Element}
    (steps : state.step draft = .ok (element, next)) : state.Advances draft element next := by
  cases stepsTo_of_step steps with
  | instruction content => exact ⟨rfl, rfl, rfl, rfl, rfl, by simp [Draft.openedRail?]⟩
  | branchStart free => exact ⟨rfl, rfl, rfl, rfl, rfl, by simpa [Draft.openedRail?] using free⟩
  | branchNext opened free =>
      exact ⟨rfl, rfl, rfl, by simp [openIds, opened, branchesAfterDraft?], rfl,
        by simpa [Draft.openedRail?] using free⟩
  | branchEnd opened same =>
      exact ⟨rfl, rfl, rfl, by simp [openIds, opened, branchesAfterDraft?, same], rfl,
        by simp [Draft.openedRail?]⟩

theorem exists_step {state : WalkState} {draft : Draft} {opened : List BranchId}
    (branches : branchesAfterDraft? state.openIds draft = some opened)
    (free : ∀ id ∈ draft.openedRail?, id ∉ state.claimed) :
    ∃ element next, state.step draft = .ok (element, next) := by
  cases draft with
  | instruction content => exact ⟨_, _, (StepsTo.instruction content).step_eq⟩
  | branchStart id => exact ⟨_, _, (StepsTo.branchStart (free id rfl)).step_eq⟩
  | branchNext id =>
      cases within : state.frames with
      | nil => simp [openIds, within, branchesAfterDraft?] at branches
      | cons frame outer => exact ⟨_, _, (StepsTo.branchNext within (free id rfl)).step_eq⟩
  | branchEnd id =>
      cases within : state.frames with
      | nil => simp [openIds, within, branchesAfterDraft?] at branches
      | cons frame outer =>
          by_cases same : frame.branchId = id
          · exact ⟨_, _, (StepsTo.branchEnd within same).step_eq⟩
          · simp [openIds, within, branchesAfterDraft?, same] at branches

theorem openedIds_cons (draft : Draft) (rest : List Draft) :
    openedIds (draft :: rest) = draft.openedRail?.toList ++ openedIds rest := by
  unfold openedIds
  cases opens : draft.openedRail? <;> simp [opens]

/-- A walk that succeeds begins with a step. -/
theorem exists_of_walk_cons {state : WalkState} {draft : Draft} {rest : List Draft}
    {elements : List Element} (walks : state.walk (draft :: rest) = .ok elements) :
    ∃ (element : Element) (next : WalkState) (others : List Element),
      state.step draft = .ok (element, next) ∧ next.walk rest = .ok others ∧
      elements = element :: others := by
  unfold walk at walks
  split at walks
  next => cases walks
  next element next steps =>
    split at walks
    next => cases walks
    next others walksOn =>
      cases walks
      exact ⟨element, next, others, steps, walksOn, rfl⟩

/--
The walk over a list of drafts succeeds exactly when its markers pair up and
take handles that are free, each of them once.
-/
theorem exists_walk_iff {drafts : List Draft} {state : WalkState} :
    (∃ elements, state.walk drafts = .ok elements) ↔
      branchesAfter? state.openIds drafts = some [] ∧ (openedIds drafts).Nodup ∧
        ∀ id ∈ openedIds drafts, id ∉ state.claimed := by
  induction drafts generalizing state with
  | nil =>
      cases within : state.frames with
      | nil => simp [walk, within, openIds]
      | cons frame outer => simp [walk, within, openIds]
  | cons draft rest ih =>
      rw [branchesAfter?_cons, openedIds_cons]
      constructor
      · rintro ⟨elements, walks⟩
        obtain ⟨element, next, others, steps, walksOn, _⟩ := exists_of_walk_cons walks
        have advance := advances_of_step steps
        obtain ⟨pairsUp, distinct, free⟩ := ih.mp ⟨others, walksOn⟩
        rw [advance.claimed] at free
        rw [advance.branches]
        refine ⟨pairsUp, ?_, ?_⟩
        · rw [List.nodup_append]
          refine ⟨by cases draft.openedRail? <;> simp, distinct, ?_⟩
          rintro id own other member rfl
          exact free id member (List.mem_append_left _ own)
        · intro id member
          rcases List.mem_append.mp member with own | later
          · exact advance.free id (Option.mem_toList.mp own)
          · exact fun taken => free id later (List.mem_append_right _ taken)
      · rintro ⟨pairsUp, distinct, free⟩
        obtain ⟨opened, branches, restPairsUp⟩ := Option.bind_eq_some_iff.mp pairsUp
        obtain ⟨element, next, steps⟩ := exists_step branches fun id own =>
          free id (List.mem_append_left _ (Option.mem_toList.mpr own))
        have advance := advances_of_step steps
        obtain rfl : next.openIds = opened := Option.some.inj (advance.branches.symm.trans branches)
        obtain ⟨_, restDistinct, apart⟩ := List.nodup_append.mp distinct
        obtain ⟨elements, walks⟩ := ih.mpr ⟨restPairsUp, restDistinct, fun id later taken => by
          rw [advance.claimed] at taken
          rcases List.mem_append.mp taken with own | before
          · exact apart id own id later rfl
          · exact free id (List.mem_append_right _ later) before⟩
        exact ⟨element :: elements, by simp [walk, steps, walks]⟩

/-- The elements of a walk hold its drafts, under the positions from where it stood. -/
theorem drafts_of_walk {drafts : List Draft} {state : WalkState} {elements : List Element}
    (walks : state.walk drafts = .ok elements) :
    LadderDiagram.drafts elements = drafts ∧
      elements.map Element.position =
        (List.range' state.position elements.length).map Address.ofNat := by
  induction drafts generalizing state elements with
  | nil =>
      cases within : state.frames with
      | nil =>
          simp only [walk, within, Except.ok.injEq] at walks
          subst walks
          exact ⟨rfl, rfl⟩
      | cons frame outer => simp [walk, within] at walks
  | cons draft rest ih =>
      obtain ⟨element, next, others, steps, walksOn, rfl⟩ := exists_of_walk_cons walks
      have advance := advances_of_step steps
      obtain ⟨restDrafts, restPositions⟩ := ih walksOn
      rw [advance.next_position] at restPositions
      constructor
      · change element.draft :: LadderDiagram.drafts others = draft :: rest
        rw [advance.draft_eq, restDrafts]
      · rw [List.map_cons, advance.position_eq, restPositions, List.length_cons,
          List.range'_succ, List.map_cons]

end WalkState

/-- Annotation succeeds exactly on the well-nested lists of drafts. -/
theorem exists_annotate_iff {drafts : List Draft} :
    (∃ elements, annotate drafts = .ok elements) ↔ WellNested drafts := by
  constructor
  · intro succeeds
    obtain ⟨closes, distinct, _⟩ := WalkState.exists_walk_iff.mp succeeds
    exact ⟨closes, distinct⟩
  · intro nested
    exact WalkState.exists_walk_iff.mpr
      ⟨nested.closes, nested.distinct, fun _ _ => List.not_mem_nil⟩

theorem drafts_of_annotate {source : List Draft} {elements : List Element}
    (annotates : annotate source = .ok elements) : drafts elements = source :=
  (WalkState.drafts_of_walk annotates).1

theorem positions_of_annotate {source : List Draft} {elements : List Element}
    (annotates : annotate source = .ok elements) :
    elements.map Element.position = (List.range elements.length).map Address.ofNat := by
  rw [(WalkState.drafts_of_walk annotates).2, List.range_eq_range']
  rfl

theorem position_of_annotate {source : List Draft} {elements : List Element}
    (annotates : annotate source = .ok elements) {place : Nat} {element : Element}
    (stands : elements[place]? = some element) : element.position = .ofNat place := by
  have positions := congrArg (·[place]?) (positions_of_annotate annotates)
  obtain ⟨bounded, _⟩ := List.getElem?_eq_some_iff.mp stands
  simp only [List.getElem?_map, stands, List.getElem?_range bounded, Option.map_some,
    Option.some.injEq] at positions
  exact positions

theorem draft_of_annotate {source : List Draft} {elements : List Element}
    (annotates : annotate source = .ok elements) {place : Nat} {element : Element}
    (stands : elements[place]? = some element) : source[place]? = some element.draft := by
  rw [← drafts_of_annotate annotates, drafts_getElem?, stands]
  rfl

theorem wellNested_of_annotate {source : List Draft} {elements : List Element}
    (annotates : annotate source = .ok elements) : WellNested source :=
  exists_annotate_iff.mp ⟨elements, annotates⟩

end LadderDiagram
