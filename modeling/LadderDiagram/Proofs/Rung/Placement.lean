import LadderDiagram.Proofs.Rung.Edit
import LadderDiagram.Proofs.Sequence.Run

/-!
# Placing instructions and branches

The checks of a placement ask for a gap and for the rail on which it lies.  Whoever names
both as the rung has them is not turned away: the instruction is put there, and it stands on
the rail that was named.  For a move this is so although the rail is named on the sequence
with the instruction, and checked on the sequence without it.  A branch is put between any
two gaps of one rail, for between them there are whole branches only.
-/

namespace LadderDiagram
namespace Rung

open OpenRung

/-- The rail of a gap passes the check. -/
theorem checkRail_railAtGap {elements : List Element}
    (annotates : annotate (drafts elements) = .ok elements) {gap : Nat}
    (within : gap ≤ elements.length) :
    checkRail elements gap (railAtGap elements gap) = .ok () := by
  have known : (railAtGap elements gap).filter (!hasRail elements ·) = none := by
    have inside : gap ≤ (drafts elements).length := by rwa [length_drafts]
    rcases railAtGap_of_annotate annotates inside with isMain | ⟨id, opened, isRail⟩
    · rw [isMain]
      rfl
    · rw [← isRail]
      simp [hasRail_iff.mpr opened]
  unfold checkRail
  rw [known]
  exact if_pos rfl

/-- The check of a rail asks whether it is that of the gap. -/
theorem checkRail_eq_ok_iff {elements : List Element}
    (annotates : annotate (drafts elements) = .ok elements) {gap : Nat}
    (within : gap ≤ elements.length) {rail : Option BranchId} :
    checkRail elements gap rail = .ok () ↔ railAtGap elements gap = rail := by
  constructor
  · intro passes
    unfold checkRail at passes
    split at passes
    next => cases passes
    next =>
      dsimp only at passes
      split at passes
      next same => exact same
      next => cases passes
  · rintro rfl
    exact checkRail_railAtGap annotates within

/-- The sequence is a list of drafts with an instruction put into a gap of a rail. -/
structure Places (source : List Draft) (gap : Nat) (rail : Option BranchId)
    (content : Instruction) (elements : List Element) (element : Element) : Prop where
  annotates : annotate (source.insertIdx gap (.instruction content)) = .ok elements
  stands : elements[gap]? = some element
  draft_eq : element.draft = .instruction content
  position_eq : element.position = .ofNat gap
  railId_eq : element.railId = rail

/-- The check of a placement makes the drafts with the instruction in the gap. -/
theorem insertedDrafts_railAtGap {source : List Draft} {before : List Element}
    (annotates : annotate source = .ok before) {gap : Nat} (within : gap ≤ before.length)
    (content : Instruction) :
    insertedDrafts before (.ofNat gap) (railAtGap before gap) content =
      .ok (source.insertIdx gap (.instruction content)) := by
  obtain rfl := drafts_of_annotate annotates
  unfold insertedDrafts
  rw [gapAt_eq_ok_iff.mpr ⟨rfl, within⟩, ok_bind, checkRail_railAtGap annotates within]
  rfl

/-- What is put into a gap and committed stands there, on the rail on which the gap was. -/
theorem exists_places {source : List Draft} {before : List Element}
    (annotates : annotate source = .ok before) {gap : Nat} (within : gap ≤ before.length)
    (content : Instruction) (state : OpenRung) :
    ∃ elements element, Places source gap (railAtGap before gap) content elements element ∧
      Action.on (do
        commit (source.insertIdx gap (.instruction content))
        let (_, element, _) ← .ask (·.rung.instructionAt (.ofNat gap))
        pure element) state =
        (.ok element, ⟨.ofElements elements state.rung.comment, state.nextId⟩) := by
  have bounded : gap ≤ source.length := by
    rwa [← drafts_of_annotate annotates, length_drafts]
  have placed : (source.insertIdx gap (.instruction content))[gap]? =
      some (.instruction content) := List.getElem?_insertIdx_self.trans (if_pos bounded)
  obtain ⟨elements, element, inserted, stands, succeeds⟩ :=
    exists_place ((wellNested_of_annotate annotates).insertInstruction bounded content) placed
      state
  refine ⟨elements, element, ?_, succeeds⟩
  obtain ⟨own, standsToo, draft, position, rail⟩ :=
    exists_element_of_annotate inserted placed (Or.inl rfl)
  obtain rfl := Option.some.inj (stands.symm.trans standsToo)
  refine ⟨inserted, stands, draft, position, rail.trans ?_⟩
  obtain ⟨first, last, rfl, rfl⟩ := exists_split_at_gap bounded
  rw [insertIdx_append_length] at inserted
  rw [railAtGap_eq_railAfter inserted (by simp), railAtGap_eq_railAfter annotates (by simp),
    List.take_left, List.take_left]

variable {rung : Rung} {nextId : Nat} {content : Instruction} {gap place : Nat}

/-- An instruction is put into a gap if the gap is named with its rail. -/
theorem on_insertInstruction (sound : OpenRung.IsSound ⟨rung, nextId⟩)
    (within : gap ≤ rung.elements.length)
    (content : Instruction) :
    ∃ elements element,
      Places (drafts rung.elements) gap (railAtGap rung.elements gap) content elements
        element ∧
      (insertInstruction (.ofNat gap) (railAtGap rung.elements gap) content).on ⟨rung, nextId⟩ =
        (.ok element, ⟨.ofElements elements rung.comment, nextId⟩) := by
  obtain ⟨elements, element, places, succeeds⟩ :=
    exists_places sound.rung.annotated within content ⟨rung, nextId⟩
  refine ⟨elements, element, places, ?_⟩
  have inserts := insertedDrafts_railAtGap sound.rung.annotated within content
  unfold insertInstruction
  rw [Action.on_bind_ask, elements_mk, inserts]
  exact succeeds

/-- The instruction that stands at a place is taken out, and nothing else changes. -/
theorem on_takeInstruction (sound : OpenRung.IsSound ⟨rung, nextId⟩)
    (found : (drafts rung.elements)[place]? = some (.instruction content)) :
    ∃ elements element, annotate ((drafts rung.elements).eraseIdx place) = .ok elements ∧
      rung.elements[place]? = some element ∧
      (takeInstruction (.ofNat place)).on ⟨rung, nextId⟩ =
        (.ok (element, content), ⟨.ofElements elements rung.comment, nextId⟩) := by
  obtain ⟨element, stands, asked⟩ := exists_instructionAt rung found
  obtain ⟨elements, annotates, commits⟩ :=
    exists_commit (sound.wellNested.eraseInstruction found) ⟨rung, nextId⟩
  refine ⟨elements, element, annotates, stands, ?_⟩
  unfold takeInstruction
  rw [Action.on_bind_ask, asked]
  dsimp only
  rw [Action.on_bind, Action.on_get]
  dsimp only
  rw [Action.on_bind_of_ok commits]
  rfl

/--
An instruction is moved to a gap of its rung if the gap is named with its rail, as both are
before the move.
-/
theorem on_moveInstruction (sound : OpenRung.IsSound ⟨rung, nextId⟩)
    (found : (drafts rung.elements)[place]? = some (.instruction content))
    (within : gap ≤ rung.elements.length) :
    ∃ elements element,
      Places ((drafts rung.elements).eraseIdx place) (gapWithout place gap)
        (railAtGap rung.elements gap) content elements element ∧
      (moveInstruction (.ofNat place) (.ofNat (gapWithout place gap))
        (railAtGap rung.elements gap)).on ⟨rung, nextId⟩ =
          (.ok element, ⟨.ofElements elements rung.comment, nextId⟩) := by
  obtain ⟨_, _, asked⟩ := exists_instructionAt rung found
  obtain ⟨remaining, annotates⟩ :
      ∃ remaining, annotate ((drafts rung.elements).eraseIdx place) = .ok remaining :=
    exists_annotate_iff.mpr (sound.wellNested.eraseInstruction found)
  have inSource : gap ≤ (drafts rung.elements).length := by rwa [length_drafts]
  have restWithin : gapWithout place gap ≤ remaining.length := by
    have bounded := (List.getElem?_eq_some_iff.mp found).1
    rw [← length_drafts remaining, drafts_of_annotate annotates,
      List.length_eraseIdx_of_lt bounded]
    exact gapWithout_le bounded inSource
  have sameRail : railAtGap remaining (gapWithout place gap) = railAtGap rung.elements gap :=
    railAtGap_eraseIdx sound.rung.annotated found annotates inSource
  obtain ⟨elements, element, places, succeeds⟩ :=
    exists_places annotates restWithin content ⟨rung, nextId⟩
  have inserts := insertedDrafts_railAtGap annotates restWithin content
  rw [sameRail] at places inserts
  refine ⟨elements, element, places, ?_⟩
  unfold moveInstruction
  rw [Action.on_bind_ask, asked]
  dsimp only
  rw [Action.on_bind_ask, elements_mk, annotates]
  dsimp only
  rw [Action.on_bind, Action.on_settled, inserts]
  exact succeeds

/-! ### Branches -/

/-- The checks of a branch are passed by two gaps of one rail. -/
theorem runBetween_railAtGap {elements : List Element}
    (annotates : annotate (drafts elements) = .ok elements) {start finish : Nat}
    (ordered : start ≤ finish) (within : finish ≤ elements.length)
    (same : railAtGap elements start = railAtGap elements finish) :
    runBetween elements (.ofNat start) (.ofNat finish) (railAtGap elements start) =
      .ok (start, finish) := by
  have startWithin : start ≤ elements.length := Nat.le_trans ordered within
  have startNamed : gapAt elements (.ofNat start) = .ok start :=
    gapAt_eq_ok_iff.mpr ⟨rfl, startWithin⟩
  have finishNamed : gapAt elements (.ofNat finish) = .ok finish :=
    gapAt_eq_ok_iff.mpr ⟨rfl, within⟩
  have startOnRail := checkRail_railAtGap annotates startWithin
  have finishOnRail := checkRail_railAtGap annotates within
  rw [← same] at finishOnRail
  have whole := isSelfContainedRun_of_railAtGap annotates ordered
    (by rwa [length_drafts]) same
  simp [runBetween, startNamed, finishNamed, Nat.not_lt.mpr ordered, startOnRail, finishOnRail,
    whole]

/-- Two gaps of one rail get a branch around what is between them, and it stands on that rail. -/
theorem on_insertBranch_railAtGap (sound : OpenRung.IsSound ⟨rung, nextId⟩) {start finish : Nat}
    (ordered : start ≤ finish) (within : finish ≤ rung.elements.length)
    (same : railAtGap rung.elements start = railAtGap rung.elements finish) :
    ∃ elements marker,
      annotate (wrapped (drafts rung.elements) start finish (.ofNat nextId)
        (.ofNat (nextId + 1))) = .ok elements ∧
      elements[start]? = some marker ∧ marker.draft = .branchStart (.ofNat nextId) ∧
      marker.railId = railAtGap rung.elements start ∧
      (insertBranch (.ofNat start) (.ofNat finish) (railAtGap rung.elements start)).on
        ⟨rung, nextId⟩ =
          (.ok (.ofNat nextId), ⟨.ofElements elements rung.comment, nextId + 2⟩) := by
  have asked := runBetween_railAtGap sound.rung.annotated ordered within same
  have whole := branchesAfter?_of_isSelfContainedRun sound.rung.wellNested
    (isSelfContainedRun_of_railAtGap sound.rung.annotated ordered (by rwa [length_drafts]) same)
  obtain ⟨elements, annotates, succeeds⟩ := on_insertBranch sound ordered whole asked
  rw [elements_mk] at annotates
  have startWithin : start ≤ (drafts rung.elements).length := by
    rw [length_drafts]
    exact Nat.le_trans ordered within
  obtain ⟨first, last, split, rfl⟩ := exists_split_at_gap startWithin
  have stands : (wrapped (drafts rung.elements) first.length finish (.ofNat nextId)
      (.ofNat (nextId + 1)))[first.length]? = some (.branchStart (.ofNat nextId)) := by
    simp [wrapped, split]
  obtain ⟨marker, standsToo, draft, _, rail⟩ :=
    exists_element_of_annotate annotates stands (Or.inr rfl)
  refine ⟨elements, marker, annotates, standsToo, draft, rail.trans ?_, succeeds⟩
  have before : (wrapped (drafts rung.elements) first.length finish (.ofNat nextId)
      (.ofNat (nextId + 1))).take first.length = first := by
    simp [wrapped, split]
  obtain ⟨bounded, _⟩ := List.getElem?_eq_some_iff.mp stands
  rw [railAtGap_eq_railAfter annotates (Nat.le_of_lt bounded), before,
    railAtGap_eq_railAfter sound.rung.annotated startWithin, split, List.take_left]

end Rung
end LadderDiagram
