import LadderDiagram.Proofs.Drawing.Edit
import LadderDiagram.Proofs.Rung.Placement

/-!
# Placing instructions and branches on a drawing

An instruction that is put into a gap of a rung, or moved there from any place of the
drawing, is placed if the gap is named with its rail, and so is a branch between two gaps.
What the routine is after that is said of the sequences of all its rungs at once, so that a
move within a rung and a move between two rungs are the same: one draft is erased, and it is
inserted elsewhere.
-/

namespace LadderDiagram

namespace Routine

/-- The sequences of all rungs. -/
def sources (routine : Routine) : List (List Draft) :=
  routine.rungs.map fun rung => drafts rung.elements

/-- The draft at a place of a rung. -/
def draftAt? (routine : Routine) (index place : Nat) : Option Draft :=
  routine.sources[index]?.bind (·[place]?)

/-- A routine has come to have some sequences, and nothing else about it is new. -/
structure Turns (before : Routine) (sources : List (List Draft)) (after : Routine) : Prop where
  name_eq : after.name = before.name
  comments_eq : after.rungs.map Rung.comment = before.rungs.map Rung.comment
  sources_eq : after.sources = sources

/-- An instruction stands at a place of a rung on a rail. -/
structure Places (routine : Routine) (index place : Nat) (rail : Option BranchId)
    (content : Instruction) (element : Element) : Prop where
  stands : routine.rungs[index]?.bind (·.elements[place]?) = some element
  draft_eq : element.draft = .instruction content
  position_eq : element.position = .ofNat place
  railId_eq : element.railId = rail

/--
A routine has come to have a branch around what is between two gaps of a rung, on a rail, and
nothing else about it is new.
-/
structure Wraps (before : Routine) (index start finish : Nat) (rail : Option BranchId)
    (id : BranchId) (after : Routine) : Prop where
  turns : ∃ railId, before.Turns
    (before.sources.modify index (Rung.wrapped · start finish id railId)) after
  opens : ∃ marker, after.rungs[index]?.bind (·.elements[start]?) = some marker ∧
    marker.draft = .branchStart id ∧ marker.railId = rail

variable {routine : Routine} {index : Nat} {rung : Rung}

theorem sources_getElem? (stands : routine.rungs[index]? = some rung) :
    routine.sources[index]? = some (drafts rung.elements) := by
  rw [sources, List.getElem?_map, stands, Option.map_some]

theorem exists_of_draftAt? {place : Nat} {draft : Draft}
    (found : routine.draftAt? index place = some draft) :
    ∃ rung, routine.rungs[index]? = some rung ∧
      (drafts rung.elements)[place]? = some draft := by
  obtain ⟨source, stands, found⟩ := Option.bind_eq_some_iff.mp found
  rw [sources, List.getElem?_map] at stands
  obtain ⟨rung, isRung, rfl⟩ := Option.map_eq_some_iff.mp stands
  exact ⟨rung, isRung, found⟩

/-- An edited rung with its old comment turns one sequence into another one. -/
theorem turns_withRung (stands : routine.rungs[index]? = some rung)
    {elements : List Element} (nextId : Nat) (change : List Draft → List Draft)
    (changes : drafts elements = change (drafts rung.elements)) :
    routine.Turns (routine.sources.modify index change)
      (routine.withRung index ⟨.ofElements elements rung.comment, nextId⟩) := by
  refine ⟨rfl, ?_, ?_⟩
  · change (routine.rungs.set index _).map Rung.comment = _
    rw [List.map_set]
    apply set_of_getElem?
    rw [List.getElem?_map, stands]
    rfl
  · change (routine.rungs.set index _).map _ = _
    rw [List.map_set, List.modify_eq_set_getElem?, sources_getElem? stands]
    exact congrArg (routine.sources.set index) changes

theorem Turns.trans {between after : Routine} {first last : List (List Draft)}
    (turns : routine.Turns first between) (turnsOn : between.Turns last after) :
    routine.Turns last after :=
  ⟨turnsOn.name_eq.trans turns.name_eq, turnsOn.comments_eq.trans turns.comments_eq,
    turnsOn.sources_eq⟩

theorem places_withRung (stands : routine.rungs[index]? = some rung) {source : List Draft}
    {gap nextId : Nat} {rail : Option BranchId} {content : Instruction}
    {elements : List Element} {element : Element}
    (places : Rung.Places source gap rail content elements element) (comment : Option String) :
    (routine.withRung index ⟨.ofElements elements comment, nextId⟩).Places index gap rail
      content element := by
  obtain ⟨bounded, _⟩ := List.getElem?_eq_some_iff.mp stands
  refine ⟨?_, places.draft_eq, places.position_eq, places.railId_eq⟩
  change ((routine.rungs.set index _)[index]?).bind _ = _
  rw [List.getElem?_set_self bounded]
  exact places.stands

end Routine

namespace Drawing

variable {α : Type} [Scalar α] [ExactScalar α] {drawing : Drawing α}

/-- An instruction is put into a gap that is named with its rail. -/
theorem LaidOut.exists_insertInstruction (laid : drawing.LaidOut) {index gap : Nat} {rung : Rung}
    (stands : drawing.routine.rungs[index]? = some rung) (within : gap ≤ rung.elements.length)
    (content : Instruction) :
    ∃ element final,
      drawing.apply (.insertInstruction (.ofNat index) (.ofNat gap)
        (railAtGap rung.elements gap) content) = (.ok element, final) ∧
      final.LaidOut ∧
      drawing.routine.Turns
        (drawing.routine.sources.modify index (·.insertIdx gap (.instruction content)))
        final.routine ∧
      final.routine.Places index gap (railAtGap rung.elements gap) content element := by
  have sound := laid.sound.openRung stands
  obtain ⟨elements, element, places, succeeds⟩ := Rung.on_insertInstruction sound within content
  have atomic : Rung.IsAtomic (fun _ => True)
      (Rung.insertInstruction (.ofNat gap) (railAtGap rung.elements gap) content) :=
    Rung.insertInstruction_isAtomic _ _ trivial
  obtain ⟨final, edits, laidFinal, _, routine_eq⟩ :=
    laid.exists_editRung stands (atomic.edited sound succeeds) succeeds
  refine ⟨element, final, edits, laidFinal, ?_⟩
  rw [routine_eq]
  exact ⟨Routine.turns_withRung stands _ _ (drafts_of_annotate places.annotates),
    Routine.places_withRung stands places rung.comment⟩

/-- A branch is put between two gaps of one rail that are named with it. -/
theorem LaidOut.exists_insertBranch (laid : drawing.LaidOut) {index start finish : Nat}
    {rung : Rung} (stands : drawing.routine.rungs[index]? = some rung) (ordered : start ≤ finish)
    (within : finish ≤ rung.elements.length)
    (same : railAtGap rung.elements start = railAtGap rung.elements finish) :
    ∃ id final,
      drawing.apply (.insertBranch (.ofNat index) (.ofNat start) (.ofNat finish)
        (railAtGap rung.elements start)) = (.ok id, final) ∧
      final.LaidOut ∧
      drawing.routine.Wraps index start finish (railAtGap rung.elements start) id
        final.routine := by
  have sound := laid.sound.openRung stands
  obtain ⟨elements, marker, annotates, opens, draft, rail, succeeds⟩ :=
    Rung.on_insertBranch_railAtGap sound ordered within same
  have atomic : Rung.IsAtomic (fun _ => True) (Rung.insertBranch (.ofNat start) (.ofNat finish)
      (railAtGap rung.elements start)) := Rung.insertBranch_isAtomic _ _ _
  obtain ⟨final, edits, laidFinal, _, routine_eq⟩ :=
    laid.exists_editRung stands (atomic.edited sound succeeds) succeeds
  refine ⟨_, final, edits, laidFinal, ?_⟩
  rw [routine_eq]
  refine ⟨⟨_, Routine.turns_withRung stands _ _ (drafts_of_annotate annotates)⟩, marker, ?_,
    draft, rail⟩
  obtain ⟨bounded, _⟩ := List.getElem?_eq_some_iff.mp stands
  change ((drawing.routine.rungs.set index _)[index]?).bind _ = _
  rw [List.getElem?_set_self bounded]
  exact opens

/-- The number of a gap once an instruction has been taken from a place of the drawing. -/
def landing (origin place goal gap : Nat) : Nat :=
  if origin = goal then gapWithout place gap else gap

section Moves

omit [ExactScalar α]

variable (drawing : Drawing α) {origin goal : Nat} (place gap : Nat) (rail : Option BranchId)
  (level : Option Address)

/-- A move within one rung counts the gap without the instruction that is moved. -/
theorem apply_moveElement_self :
    drawing.apply (.moveElement ⟨.ofNat origin, .ofNat place⟩
      ⟨.ofNat origin, .ofNat gap, rail, level⟩) =
    (editRung (.ofNat origin) (Rung.moveInstruction (.ofNat place)
      (.ofNat (gapWithout place gap)) rail)).on drawing := by
  have counted : (if (Address.ofNat gap).isAfter (.ofNat place) then
      (Address.ofNat gap).previous else .ofNat gap) = .ofNat (gapWithout place gap) := by
    unfold gapWithout
    rw [Address.isAfter_ofNat]
    by_cases behind : place < gap
    · obtain ⟨before, rfl⟩ := Nat.exists_eq_succ_of_ne_zero (Nat.ne_zero_of_lt behind)
      simp [behind, Address.ofNat, Address.previous]
    · simp [behind]
  have same : sameRung? (.ofNat origin) (.ofNat origin) = true := by simp [sameRung?, Address.ofNat]
  change (moveElement _ _).on drawing = _
  unfold moveElement
  rw [if_pos same]
  unfold moveWithin
  dsimp only
  rw [counted]

theorem apply_moveElement_of_ne (different : origin ≠ goal) :
    drawing.apply (.moveElement ⟨.ofNat origin, .ofNat place⟩
      ⟨.ofNat goal, .ofNat gap, rail, level⟩) =
    (moveAcross ⟨.ofNat origin, .ofNat place⟩
      ⟨.ofNat goal, .ofNat gap, rail, level⟩).on drawing := by
  have apart : ¬ sameRung? (.ofNat origin) (.ofNat goal) = true := by
    simpa [sameRung?, Address.ofNat, Int.ofNat_inj] using different
  change (moveElement _ _).on drawing = _
  unfold moveElement
  rw [if_neg apart]

end Moves

variable {origin place goal gap : Nat} {content : Instruction} {rung : Rung}

theorem LaidOut.exists_moveWithin (laid : drawing.LaidOut)
    (stands : drawing.routine.rungs[origin]? = some rung)
    (found : (drafts rung.elements)[place]? = some (.instruction content))
    (within : gap ≤ rung.elements.length) :
    ∃ element final,
      (editRung (.ofNat origin) (Rung.moveInstruction (.ofNat place)
        (.ofNat (gapWithout place gap)) (railAtGap rung.elements gap))).on drawing =
          (.ok element, final) ∧
      final.LaidOut ∧
      drawing.routine.Turns
        ((drawing.routine.sources.modify origin (·.eraseIdx place)).modify origin
          (·.insertIdx (gapWithout place gap) (.instruction content))) final.routine ∧
      final.routine.Places origin (gapWithout place gap) (railAtGap rung.elements gap) content
        element := by
  have sound := laid.sound.openRung stands
  obtain ⟨elements, element, places, succeeds⟩ := Rung.on_moveInstruction sound found within
  have atomic : Rung.IsAtomic (fun _ => True) (Rung.moveInstruction (.ofNat place)
      (.ofNat (gapWithout place gap)) (railAtGap rung.elements gap)) :=
    Rung.moveInstruction_isAtomic _ _ _
  obtain ⟨final, edits, laidFinal, _, routine_eq⟩ :=
    laid.exists_editRung stands (atomic.edited sound succeeds) succeeds
  refine ⟨element, final, edits, laidFinal, ?_⟩
  rw [routine_eq, List.modify_modify_eq]
  exact ⟨Routine.turns_withRung stands _ _ (drafts_of_annotate places.annotates),
    Routine.places_withRung stands places rung.comment⟩

theorem LaidOut.exists_moveAcross_of_gap (laid : drawing.LaidOut) {giver : Rung}
    (gives : drawing.routine.rungs[origin]? = some giver)
    (found : (drafts giver.elements)[place]? = some (.instruction content))
    (takes : drawing.routine.rungs[goal]? = some rung) (different : origin ≠ goal)
    (within : gap ≤ rung.elements.length) (level : Option Address) :
    ∃ element final,
      (moveAcross ⟨.ofNat origin, .ofNat place⟩
        ⟨.ofNat goal, .ofNat gap, railAtGap rung.elements gap, level⟩).on drawing =
          (.ok element, final) ∧
      final.LaidOut ∧
      drawing.routine.Turns
        ((drawing.routine.sources.modify origin (·.eraseIdx place)).modify goal
          (·.insertIdx gap (.instruction content))) final.routine ∧
      final.routine.Places goal gap (railAtGap rung.elements gap) content element := by
  have giverSound := laid.sound.openRung gives
  obtain ⟨taken, removed, annotates, _, takesOut⟩ := Rung.on_takeInstruction giverSound found
  have taking : Rung.IsAtomic (fun _ => True) (Rung.takeInstruction (.ofNat place)) :=
    Rung.takeInstruction_isAtomic _
  have edited := taking.edited giverSound takesOut
  have soundBetween := laid.sound.withRung gives edited
  have takesToo : (drawing.routine.withRung origin
      ⟨.ofElements taken giver.comment, drawing.routine.nextId⟩).rungs[goal]? = some rung :=
    (List.getElem?_set_ne different).trans takes
  have takerSound := soundBetween.openRung takesToo
  obtain ⟨elements, element, places, putsIn⟩ :=
    Rung.on_insertInstruction takerSound within content
  have putting : Rung.IsAtomic (fun _ => True)
      (Rung.insertInstruction (.ofNat gap) (railAtGap rung.elements gap) content) :=
    Rung.insertInstruction_isAtomic _ _ trivial
  have editedToo := putting.edited takerSound putsIn
  have carries : (carryOver ⟨.ofNat origin, .ofNat place⟩
      ⟨.ofNat goal, .ofNat gap, railAtGap rung.elements gap, level⟩).on drawing =
        (.ok element, { drawing with
          routine := (drawing.routine.withRung origin
            ⟨.ofElements taken giver.comment, drawing.routine.nextId⟩).withRung goal
              ⟨.ofElements elements rung.comment, drawing.routine.nextId⟩ }) := by
    unfold carryOver
    rw [Action.on_bind, on_onRoutine, Routine.on_editRung_of_ok gives takesOut]
    dsimp only
    rw [on_onRoutine]
    dsimp only
    rw [Routine.on_editRung_of_ok takesToo putsIn]
    rfl
  obtain ⟨final, moves, laidFinal, _, routine_eq⟩ :=
    laid.exists_moveAcross _ _ rfl rfl gives takes edited takesToo editedToo carries
  refine ⟨element, final, moves, laidFinal, ?_⟩
  rw [routine_eq]
  have turns := Routine.turns_withRung gives drawing.routine.nextId (·.eraseIdx place)
    (drafts_of_annotate annotates)
  have turnsOn := Routine.turns_withRung takesToo drawing.routine.nextId
    (·.insertIdx gap (.instruction content)) (drafts_of_annotate places.annotates)
  rw [turns.sources_eq] at turnsOn
  exact ⟨turns.trans turnsOn, Routine.places_withRung takesToo places rung.comment⟩

/-- An instruction is moved to a gap that is named with its rail, as both are before the move. -/
theorem LaidOut.exists_moveElement (laid : drawing.LaidOut)
    (found : drawing.routine.draftAt? origin place = some (.instruction content))
    (stands : drawing.routine.rungs[goal]? = some rung) (within : gap ≤ rung.elements.length)
    (level : Option Address) :
    ∃ element final,
      drawing.apply (.moveElement ⟨.ofNat origin, .ofNat place⟩
        ⟨.ofNat goal, .ofNat gap, railAtGap rung.elements gap, level⟩) = (.ok element, final) ∧
      final.LaidOut ∧
      drawing.routine.Turns
        ((drawing.routine.sources.modify origin (·.eraseIdx place)).modify goal
          (·.insertIdx (landing origin place goal gap) (.instruction content))) final.routine ∧
      final.routine.Places goal (landing origin place goal gap) (railAtGap rung.elements gap)
        content element := by
  obtain ⟨giver, gives, found⟩ := Routine.exists_of_draftAt? found
  by_cases same : origin = goal
  · subst same
    obtain rfl : giver = rung := Option.some.inj (gives.symm.trans stands)
    rw [apply_moveElement_self, landing, if_pos rfl]
    exact laid.exists_moveWithin gives found within
  · rw [apply_moveElement_of_ne drawing _ _ _ _ same, landing, if_neg same]
    exact laid.exists_moveAcross_of_gap gives found stands same within level

end Drawing
end LadderDiagram
