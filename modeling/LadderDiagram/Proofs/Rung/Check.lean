import LadderDiagram.Rung.Edit
import LadderDiagram.Proofs.Sequence.Splice

/-!
# What the checks of an edit establish

Before an edit makes a new list of drafts it asks the rung about its arguments.
Each question has one theorem here: the answer is either an error that is no
complaint about the pairing of markers, or what the edit relies on.  On a
well-nested sequence the searches for the ends of branches and rails cannot fail.
-/

namespace LadderDiagram

/-- An error that is no complaint about the pairing of markers. -/
def LadderError.IsOrdinary (error : LadderError) : Prop := error.code ≠ .unbalancedBranch

theorem Address.exists_place_iff {β : Type} (address : Address) (items : List β)
    (found : Nat × β) :
    (address.toNat?.bind fun place => items[place]?.map (place, ·)) = some found ↔
      address = .ofNat found.1 ∧ items[found.1]? = some found.2 := by
  obtain ⟨place, item⟩ := found
  constructor
  · intro named
    obtain ⟨own, isOwn, atOwn⟩ := Option.bind_eq_some_iff.mp named
    obtain ⟨other, found, same⟩ := Option.map_eq_some_iff.mp atOwn
    cases same
    refine ⟨?_, found⟩
    cases address with
    | whole value =>
        cases value with
        | ofNat value => cases isOwn; rfl
        | negSucc value => cases isOwn
    | other value => cases isOwn
  · rintro ⟨rfl, found⟩
    simp [found]

namespace Rung

variable {elements : List Element}

theorem entryAt_eq_ok_iff (rung : Rung) (position : Address) {place : Nat} {element : Element} :
    rung.entryAt position = .ok (place, element) ↔
      position = .ofNat place ∧ rung.elements[place]? = some element := by
  rw [← Address.exists_place_iff position rung.elements (place, element)]
  unfold entryAt
  cases position.toNat?.bind fun place => rung.elements[place]?.map (place, ·) <;> simp

theorem entryAt_cases (rung : Rung) (position : Address) :
    (∃ error, error.IsOrdinary ∧ rung.entryAt position = .error error) ∨
      ∃ place element, position = .ofNat place ∧ rung.elements[place]? = some element ∧
        rung.entryAt position = .ok (place, element) := by
  cases entry : rung.entryAt position with
  | error error =>
      left
      unfold entryAt at entry
      cases found : position.toNat?.bind fun place => rung.elements[place]?.map (place, ·) with
      | none =>
          simp only [found, Except.error.injEq] at entry
          subst entry
          exact ⟨.noElement position rung.length, nofun, rfl⟩
      | some found => simp [found] at entry
  | ok found =>
      obtain ⟨place, element⟩ := found
      obtain ⟨named, found⟩ := (entryAt_eq_ok_iff rung position).mp entry
      exact Or.inr ⟨place, element, named, found, rfl⟩

theorem instructionAt_cases (rung : Rung) (position : Address) :
    (∃ error, error.IsOrdinary ∧ rung.instructionAt position = .error error) ∨
      ∃ place element content, position = .ofNat place ∧
        (drafts rung.elements)[place]? = some (.instruction content) ∧
        rung.instructionAt position = .ok (place, element, content) := by
  unfold instructionAt
  rcases rung.entryAt_cases position with
    ⟨error, ordinary, fails⟩ | ⟨place, element, named, found, entry⟩
  · rw [fails]
    exact Or.inl ⟨error, ordinary, rfl⟩
  · rw [entry]
    cases kind : element.draft with
    | instruction content =>
        refine Or.inr ⟨place, element, content, named, by simp [found, kind], ?_⟩
        simp [kind]
    | branchStart id =>
        refine Or.inl ⟨.notInstruction place .branchStart, ?_, by simp [kind, Draft.kind]⟩
        intro unbalanced
        cases unbalanced
    | branchNext id =>
        refine Or.inl ⟨.notInstruction place .branchNext, ?_, by simp [kind, Draft.kind]⟩
        intro unbalanced
        cases unbalanced
    | branchEnd id =>
        refine Or.inl ⟨.notInstruction place .branchEnd, ?_, by simp [kind, Draft.kind]⟩
        intro unbalanced
        cases unbalanced

theorem elementAt_eq_ok_iff {rung : Rung} {position : Address} {element : Element} :
    rung.elementAt position = .ok element ↔
      ∃ place, position = .ofNat place ∧ rung.elements[place]? = some element := by
  unfold elementAt
  constructor
  · intro asked
    cases entry : rung.entryAt position with
    | error error =>
        rw [entry] at asked
        cases asked
    | ok found =>
        rw [entry] at asked
        cases asked
        exact ⟨found.1, (entryAt_eq_ok_iff rung position).mp entry⟩
  · rintro ⟨place, named, stands⟩
    rw [(entryAt_eq_ok_iff rung position).mpr ⟨named, stands⟩]
    rfl

/-- Where a draft stands, the element it is the draft of is found. -/
theorem exists_elementAt (rung : Rung) {place : Nat} {draft : Draft}
    (found : (drafts rung.elements)[place]? = some draft) :
    ∃ element, element.draft = draft ∧ rung.elementAt (.ofNat place) = .ok element := by
  rw [drafts_getElem?] at found
  obtain ⟨element, stands, isDraft⟩ := Option.map_eq_some_iff.mp found
  exact ⟨element, isDraft, elementAt_eq_ok_iff.mpr ⟨place, rfl, stands⟩⟩

/-- Where an instruction stands, it is found. -/
theorem exists_instructionAt (rung : Rung) {place : Nat} {content : Instruction}
    (found : (drafts rung.elements)[place]? = some (.instruction content)) :
    ∃ element, rung.elements[place]? = some element ∧
      rung.instructionAt (.ofNat place) = .ok (place, element, content) := by
  rw [drafts_getElem?] at found
  obtain ⟨element, stands, kind⟩ := Option.map_eq_some_iff.mp found
  have entry := (entryAt_eq_ok_iff rung (.ofNat place)).mpr ⟨rfl, stands⟩
  refine ⟨element, stands, ?_⟩
  unfold instructionAt
  rw [entry]
  simp [kind]

theorem gapAt_eq_ok_iff {position : Address} {gap : Nat} :
    gapAt elements position = .ok gap ↔ position = .ofNat gap ∧ gap ≤ elements.length := by
  rw [← Address.upTo?_eq_some_iff]
  unfold gapAt
  cases position.upTo? elements.length <;> simp

theorem gapAt_cases (elements : List Element) (position : Address) :
    (∃ error, error.IsOrdinary ∧ gapAt elements position = .error error) ∨
      ∃ gap, position = .ofNat gap ∧ gap ≤ elements.length ∧
        gapAt elements position = .ok gap := by
  unfold gapAt
  cases named : position.upTo? elements.length with
  | none => exact Or.inl ⟨.noGap position elements.length, nofun, rfl⟩
  | some gap =>
      obtain ⟨isGap, within⟩ := Address.upTo?_eq_some_iff.mp named
      exact Or.inr ⟨gap, isGap, within, rfl⟩

theorem checkRail_cases (elements : List Element) (gap : Nat) (rail : Option BranchId) :
    (∃ error, error.IsOrdinary ∧ checkRail elements gap rail = .error error) ∨
      checkRail elements gap rail = .ok () := by
  unfold checkRail
  cases rail.filter (!hasRail elements ·) with
  | some unknown => exact Or.inl ⟨.unknownBranch unknown, nofun, rfl⟩
  | none =>
      by_cases same : railAtGap elements gap = rail
      · exact Or.inr (if_pos same)
      · exact Or.inl ⟨.wrongRail gap rail (railAtGap elements gap), nofun, if_neg same⟩

theorem insertedDrafts_cases (elements : List Element) (position : Address)
    (rail : Option BranchId) (content : Instruction) :
    (∃ error, error.IsOrdinary ∧ insertedDrafts elements position rail content = .error error) ∨
      ∃ gap, position = .ofNat gap ∧ gap ≤ elements.length ∧
        insertedDrafts elements position rail content =
          .ok ((drafts elements).insertIdx gap (.instruction content)) := by
  unfold insertedDrafts
  rcases gapAt_cases elements position with ⟨error, ordinary, fails⟩ | ⟨gap, isGap, within, named⟩
  · rw [fails]
    exact Or.inl ⟨error, ordinary, rfl⟩
  · rw [named]
    rcases checkRail_cases elements gap rail with ⟨error, ordinary, fails⟩ | onRail
    · exact Or.inl ⟨error, ordinary, by simp [fails]⟩
    · exact Or.inr ⟨gap, isGap, within, by simp [onRail]⟩

/-- A run between two gaps pairs up by itself, so that it may be wrapped into a branch. -/
theorem runBetween_cases (nested : WellNested (drafts elements)) (first last : Address)
    (rail : Option BranchId) :
    (∃ error, error.IsOrdinary ∧ runBetween elements first last rail = .error error) ∨
      ∃ start finish, start ≤ finish ∧ finish ≤ elements.length ∧
        branchesAfter? [] (((drafts elements).take finish).drop start) = some [] ∧
        runBetween elements first last rail = .ok (start, finish) := by
  unfold runBetween
  rcases gapAt_cases elements first with ⟨error, ordinary, fails⟩ | ⟨start, _, _, startNamed⟩
  · rw [fails]
    exact Or.inl ⟨error, ordinary, rfl⟩
  rcases gapAt_cases elements last with ⟨error, ordinary, fails⟩ | ⟨finish, _, within, named⟩
  · exact Or.inl ⟨error, ordinary, by simp [startNamed, fails]⟩
  by_cases reversed : finish < start
  · refine Or.inl ⟨.reversedRange start finish, nofun, ?_⟩
    simp [startNamed, named, reversed]
  rcases checkRail_cases elements start rail with ⟨error, ordinary, fails⟩ | startOnRail
  · refine Or.inl ⟨error, ordinary, ?_⟩
    simp [startNamed, named, reversed, fails]
  rcases checkRail_cases elements finish rail with ⟨error, ordinary, fails⟩ | onRail
  · refine Or.inl ⟨error, ordinary, ?_⟩
    simp [startNamed, named, reversed, startOnRail, fails]
  by_cases whole : isSelfContainedRun elements start finish
  · refine Or.inr ⟨start, finish, Nat.le_of_not_lt reversed, within, ?_, ?_⟩
    · exact branchesAfter?_of_isSelfContainedRun nested whole
    · simp [startNamed, named, reversed, startOnRail, onRail, whole]
  · refine Or.inl ⟨.crossingRange start finish, nofun, ?_⟩
    simp [startNamed, named, reversed, startOnRail, onRail, whole]

/-- Behind the rail that a marker opens its branch is still open. -/
theorem openedRailEnd_cases {rung : Rung} (nested : WellNested (drafts rung.elements))
    (position : Address) :
    (∃ error, error.IsOrdinary ∧ rung.openedRailEnd position = .error error) ∨
      ∃ first last innermost outer, drafts rung.elements = first ++ last ∧
        branchesAfter? [] first = some (innermost :: outer) ∧
        rung.openedRailEnd position = .ok first.length := by
  unfold openedRailEnd
  rcases rung.entryAt_cases position with
    ⟨error, ordinary, fails⟩ | ⟨place, marker, _, found, entry⟩
  · rw [fails]
    exact Or.inl ⟨error, ordinary, rfl⟩
  cases opens : marker.openedRail? with
  | none =>
      refine Or.inl ⟨.notRailMarker place marker.kind, nofun, ?_⟩
      simp [entry, opens]
  | some id =>
      have atPlace : (drafts rung.elements)[place]? = some marker.draft := by
        rw [drafts_getElem?, found, Option.map_some]
      have isMarker : marker.draft.openedRail?.isSome := Option.isSome_of_eq_some opens
      obtain ⟨first, inside, last, opened, innermost, outer, split, placed, finds, before,
        behind, within⟩ := findRailEnd_of_wellNested nested atPlace isMarker
      refine Or.inr ⟨first ++ marker.draft :: inside, last, innermost, outer, ?_, ?_, ?_⟩
      · rw [split]
      · rw [branchesAfter?_append, before, Option.bind_some, ← List.singleton_append,
          branchesAfter?_append, behind]
        exact within
      · simp only [entry, opens, finds, ok_bind, Option.isNone_some, Bool.false_eq_true,
          if_false, List.length_append, List.length_cons]
        congr 1
        omega

theorem markerOf?_eq_some {wanted : Draft → Option BranchId} {id : BranchId} {start : Nat}
    (marks : markerOf? elements wanted id = some start) :
    ∃ marker, (drafts elements)[start]? = some marker ∧ wanted marker = some id := by
  obtain ⟨bounded, here, _⟩ := List.findIdx?_eq_some_iff_getElem.mp marks
  refine ⟨elements[start].draft, ?_, beq_iff_eq.mp here⟩
  rw [drafts_getElem?, List.getElem?_eq_getElem bounded, Option.map_some]

theorem startId?_eq_some {marker : Draft} {id : BranchId} :
    startId? marker = some id ↔ marker = .branchStart id := by
  cases marker <;> simp [startId?]

/-- The branch that a handle names for a move is a whole one. -/
theorem branchAndGap_cases (nested : WellNested (drafts elements)) (id : BranchId)
    (target : Address) :
    (∃ error, error.IsOrdinary ∧ branchAndGap elements id target = .error error) ∨
      ∃ first block last gap, drafts elements = first ++ block ++ last ∧ IsBranch id block ∧
        branchAndGap elements id target =
          .ok (first.length, first.length + block.length, gap) := by
  unfold branchAndGap
  cases marks : markerOf? elements startId? id with
  | none => exact Or.inl ⟨.unknownBranch id, nofun, rfl⟩
  | some start =>
      obtain ⟨marker, opens, isStart⟩ := markerOf?_eq_some marks
      obtain rfl := startId?_eq_some.mp isStart
      obtain ⟨first, block, last, split, rfl, finds, isBranch⟩ :=
        findBranchEnd_of_wellNested nested opens
      have positive := length_pos_of_isBranch isBranch
      have finish : first.length + block.length - 1 + 1 = first.length + block.length := by omega
      rcases gapAt_cases elements target with ⟨error, ordinary, fails⟩ | ⟨gap, _, _, named⟩
      · exact Or.inl ⟨error, ordinary, by simp [finds, fails]⟩
      by_cases inside : (first.length < gap && gap < first.length + block.length) = true
      · refine Or.inl ⟨.insideMovedBranch id gap, nofun, ?_⟩
        simp only [finds, named, finish, inside, ok_bind, if_true]
        rfl
      · refine Or.inr ⟨first, block, last, gap, split, isBranch, ?_⟩
        simp only [finds, named, finish, inside, ok_bind]
        rfl

/-- What a handle names for removal leaves open the branches that were open before it. -/
theorem openedRange_cases (nested : WellNested (drafts elements)) (id : BranchId) :
    (∃ error, error.IsOrdinary ∧ openedRange elements id = .error error) ∨
      ∃ first block last, drafts elements = first ++ block ++ last ∧
        (∀ opened, branchesAfter? [] first = some opened →
          branchesAfter? opened block = some opened) ∧
        openedRange elements id = .ok (first.length, first.length + block.length) := by
  unfold openedRange
  cases marks : markerOf? elements Draft.openedRail? id with
  | none => exact Or.inl ⟨.unknownBranch id, nofun, rfl⟩
  | some start =>
      right
      obtain ⟨marker, opens, isMarker⟩ := markerOf?_eq_some marks
      have here : elements[start]?.bind (startId? ∘ Element.draft) = startId? marker := by
        rw [drafts_getElem?] at opens
        obtain ⟨element, found, rfl⟩ := Option.map_eq_some_iff.mp opens
        rw [found]
        rfl
      cases marker with
      | instruction content => cases isMarker
      | branchEnd own => cases isMarker
      | branchStart own =>
          obtain rfl : own = id := Option.some.inj isMarker
          obtain ⟨first, block, last, split, rfl, finds, isBranch⟩ :=
            findBranchEnd_of_wellNested nested opens
          have positive := length_pos_of_isBranch isBranch
          have finish : first.length + block.length - 1 + 1 = first.length + block.length := by
            omega
          refine ⟨first, block, last, split, fun opened _ => isBranch.neutral opened, ?_⟩
          simp [here, startId?, finds, finish]
      | branchNext own =>
          obtain ⟨first, inside, last, opened, innermost, outer, split, rfl, finds, before,
            behind, within⟩ := findRailEnd_of_wellNested nested opens rfl
          refine ⟨first, .branchNext own :: inside, last, split, ?_, ?_⟩
          · intro others same
            obtain rfl : opened = others := Option.some.inj (before.symm.trans same)
            obtain ⟨_, _, rfl, here⟩ := exists_of_branchesAfter?_branchNext behind
            obtain ⟨rfl, rfl⟩ := List.cons.inj (Option.some.inj here)
            exact within
          · simp [here, startId?, finds]
            omega

end Rung
end LadderDiagram
