import LadderDiagram.Proofs.Drawing.Placement
import LadderDiagram.Proofs.Drawing.Run
import LadderDiagram.Proofs.Rung.Moving

/-!
# Moving instructions

An instruction that is moved is erased where it stood and inserted into the gap that was
named, and no other element of the drawing notices: each keeps its draft, its rail, its level
and its outermost branch, and so its handles.  A move is turned away only if there is no
instruction, no such gap, or another rail at the gap, all of it as it was before the move.
Within one rung the gap is checked without the instruction, and between two rungs on a rung
that has not been touched; as an instruction leaves all rails as they are, both checks ask
for the same.
-/

namespace LadderDiagram

/--
A number that is not a whole one, or one too large to count with, is no place either when it
is counted back by one.  The one number for which this fails is `2 ^ 53`, the least that is too
large to count with; a rung would need as many elements for a position to have that number.
-/
def Address.IsExact (address : Address) : Prop :=
  ∀ value, address = .other value → ∀ place, address.previous ≠ .ofNat place

theorem Address.isExact_whole (value : Int) : (Address.whole value).IsExact := nofun

/-- A gap that is counted without an element before it is one more with it. -/
theorem Address.exists_gap {position : Address} {place landing count : Nat}
    (exact : position.IsExact)
    (counted : (if position.isAfter (.ofNat place) then position.previous else position) =
      .ofNat landing) (bounded : landing < count) :
    ∃ gap, position = .ofNat gap ∧ gap ≤ count ∧ gapWithout place gap = landing := by
  cases position with
  | other value =>
      split at counted
      next => exact absurd counted (exact value rfl landing)
      next => cases counted
  | whole value =>
      simp only [Address.isAfter, Address.ofNat, Address.previous, decide_eq_true_eq] at counted
      split at counted
      next behind =>
        injection counted with counted
        refine ⟨landing + 1, ?_, bounded, ?_⟩
        · rw [Address.ofNat, Address.whole.injEq]
          omega
        · rw [gapWithout, if_pos (by omega), Nat.add_sub_cancel]
      next before =>
        injection counted with counted
        subst counted
        exact ⟨landing, rfl, Nat.le_of_lt bounded, if_neg (by omega)⟩

/-- Where a list changes at one place, so does what is read off its items. -/
theorem map_modify_of_getElem? {β γ : Type} {items : List β} {index : Nat} {change : β → β}
    {read : β → γ} {follow : γ → γ}
    (follows : ∀ item, items[index]? = some item → read (change item) = follow (read item)) :
    (items.modify index change).map read = (items.map read).modify index follow := by
  apply List.ext_getElem?
  intro place
  rw [List.getElem?_map, List.getElem?_modify, List.getElem?_modify, List.getElem?_map]
  by_cases here : index = place
  · subst here
    cases found : items[index]? with
    | none => simp
    | some item => simp [follows item found]
  · simp [here]

namespace Routine

variable {routine : Routine}

/-- The elements of all rungs, without their positions. -/
def unplaced (routine : Routine) : List (List Element) :=
  routine.rungs.map fun rung => rung.elements.map Element.unplaced

theorem IsSound.unplaced_eq (sound : routine.IsSound) :
    routine.unplaced = routine.sources.map (unplacedWithin []) := by
  unfold unplaced sources
  rw [List.map_map]
  apply List.map_congr_left
  intro rung member
  exact unplaced_of_annotate (sound.rungs rung member).annotated

/--
An element has been moved from a place of one rung to a gap of a rung, which is counted before
the move, and nothing else about the routine is new.
-/
structure HasMoved (before : Routine) (origin place goal gap : Nat) (element : Element)
    (after : Routine) : Prop where
  name_eq : after.name = before.name
  comments_eq : after.rungs.map Rung.comment = before.rungs.map Rung.comment
  unplaced_eq : after.unplaced =
    (before.unplaced.modify origin (·.eraseIdx place)).modify goal
      (·.insertIdx (Drawing.landing origin place goal gap) element.unplaced)

/-- Where the drafts of a rung have got an instruction, its elements have got what it is there. -/
theorem unplaced_of_inserted {after : Routine} {sources : List (List Draft)}
    {goal landing : Nat} {rail : Option BranchId} {content : Instruction} {element : Element}
    (soundAfter : after.IsSound)
    (inserts : after.sources = sources.modify goal (·.insertIdx landing (.instruction content)))
    (places : after.Places goal landing rail content element) :
    after.unplaced = (sources.map (unplacedWithin [])).modify goal
      (·.insertIdx landing element.unplaced) := by
  have standsIn : after.unplaced[goal]?.bind (·[landing]?) = some element.unplaced := by
    obtain ⟨rung, isRung, stands⟩ := Option.bind_eq_some_iff.mp places.stands
    rw [unplaced, List.getElem?_map, isRung, Option.map_some, Option.bind_some,
      List.getElem?_map, stands, Option.map_some]
  rw [soundAfter.unplaced_eq, inserts] at standsIn ⊢
  obtain ⟨taken, isTaken, stands⟩ := Option.bind_eq_some_iff.mp standsIn
  rw [List.getElem?_map, List.getElem?_modify_eq] at isTaken
  obtain ⟨inserted, isInserted, rfl⟩ := Option.map_eq_some_iff.mp isTaken
  obtain ⟨source, isSource, rfl⟩ := Option.map_eq_some_iff.mp isInserted
  have within : landing ≤ source.length := by
    by_contra beyond
    have beyond := Nat.lt_of_not_le beyond
    rw [List.insertIdx_of_length_lt beyond,
      List.getElem?_eq_none (by rw [length_unplacedWithin]; omega)] at stands
    cases stands
  rw [unplacedWithin_insertIdx within, List.getElem?_insertIdx_self,
    if_pos (by rwa [length_unplacedWithin]), Option.some.injEq] at stands
  apply map_modify_of_getElem?
  intro other isOther
  obtain rfl := Option.some.inj (isSource.symm.trans isOther)
  rw [unplacedWithin_insertIdx within, stands]

/-- Where an instruction has been erased and inserted elsewhere, it has been moved. -/
theorem hasMoved_of_turns {after : Routine} {origin place goal gap : Nat}
    {rail : Option BranchId} {content : Instruction} {element : Element}
    (sound : routine.IsSound) (soundAfter : after.IsSound)
    (found : routine.draftAt? origin place = some (.instruction content))
    (turns : routine.Turns ((routine.sources.modify origin (·.eraseIdx place)).modify goal
      (·.insertIdx (Drawing.landing origin place goal gap) (.instruction content))) after)
    (places : after.Places goal (Drawing.landing origin place goal gap) rail content element) :
    routine.HasMoved origin place goal gap element after := by
  have erased : (routine.sources.modify origin (·.eraseIdx place)).map (unplacedWithin []) =
      routine.unplaced.modify origin (·.eraseIdx place) := by
    rw [sound.unplaced_eq]
    apply map_modify_of_getElem?
    intro source isSource
    rw [draftAt?, isSource] at found
    exact unplacedWithin_eraseIdx found
  refine ⟨turns.name_eq, turns.comments_eq, ?_⟩
  rw [unplaced_of_inserted soundAfter turns.sources_eq places, erased]

end Routine

namespace Drawing

variable {α : Type} [Scalar α] [ExactScalar α] {drawing : Drawing α} {source : ElementAddress}
  {target : DropTarget} {answer : Element} {after : Drawing α}

/-- What a move asks for: an instruction, and a gap that is named with its rail. -/
structure MayMove (routine : Routine) (source : ElementAddress) (target : DropTarget)
    (origin place goal gap : Nat) : Prop where
  source_eq : source = ⟨.ofNat origin, .ofNat place⟩
  goal_eq : target.rung = .ofNat goal
  gap_eq : target.position = .ofNat gap
  found : ∃ content, routine.draftAt? origin place = some (.instruction content)
  gapOnRail : ∃ rung, routine.rungs[goal]? = some rung ∧ gap ≤ rung.elements.length ∧
    railAtGap rung.elements gap = target.rail

theorem mayMove_of_moveWithin (laid : drawing.LaidOut) (exact : target.position.IsExact)
    (same : source.rung = target.rung)
    (succeeds : (moveWithin source target).on drawing = (.ok answer, after)) :
    ∃ origin place goal gap, MayMove drawing.routine source target origin place goal gap := by
  unfold moveWithin at succeeds
  dsimp only at succeeds
  have atomic (place : Address) : Rung.IsAtomic (fun _ => True)
      (Rung.moveInstruction source.position place target.rail) :=
    Rung.moveInstruction_isAtomic _ _ _
  obtain ⟨index, rung, _, isRung, stands, _, moves, _⟩ :=
    laid.exists_of_on_editRung (atomic _) succeeds
  obtain ⟨place, content, landing, isPlace, found, isLanding, bounded, onRail⟩ :=
    Rung.exists_of_on_moveInstruction (laid.sound.openRung stands) moves
  obtain ⟨sourceRung, sourcePosition⟩ := source
  cases isRung
  cases isPlace
  obtain ⟨gap, isGap, within, without⟩ := Address.exists_gap exact isLanding bounded
  refine ⟨index, place, index, gap, rfl, same.symm, isGap, ⟨content, ?_⟩, rung, stands, within,
    onRail gap within without⟩
  rw [Routine.draftAt?, Routine.sources_getElem? stands]
  exact found

omit [ExactScalar α] in
theorem mayMove_of_moveAcross (laid : drawing.LaidOut)
    (apart : sameRung? source.rung target.rung = false)
    (succeeds : (moveAcross source target).on drawing = (.ok answer, after)) :
    ∃ origin place goal gap, MayMove drawing.routine source target origin place goal gap := by
  unfold moveAcross at succeeds
  obtain ⟨⟨origin, giver⟩, gives, succeeds⟩ := Action.exists_of_on_bind_ask succeeds
  obtain ⟨⟨goal, taker⟩, takes, succeeds⟩ := Action.exists_of_on_bind_ask succeeds
  have carries := Action.on_of_on_undoing succeeds
  obtain ⟨moved, between, carries, _⟩ := Action.exists_of_on_bind carries
  unfold carryOver at carries
  obtain ⟨⟨element, content⟩, taken, takesOut, putsIn⟩ := Action.exists_of_on_bind carries
  obtain ⟨_, takesOutOne, rfl⟩ := exists_of_on_onRoutine takesOut
  obtain ⟨_, putsInOne, _⟩ := exists_of_on_onRoutine putsIn
  have taking : Rung.IsAtomic (fun _ => True) (Rung.takeInstruction source.position) :=
    Rung.takeInstruction_isAtomic _
  have putting : Rung.IsAtomic (fun _ => True)
      (Rung.insertInstruction target.position target.rail content) :=
    Rung.insertInstruction_isAtomic _ _ trivial
  obtain ⟨own, rung, state, isOwn, stands, edited, takesRung, rfl⟩ :=
    Routine.exists_of_on_editRung taking laid.sound takesOutOne
  have soundBetween := laid.sound.withRung stands edited
  obtain ⟨other, filled, _, isOther, standsToo, _, putsRung, _⟩ :=
    Routine.exists_of_on_editRung putting soundBetween putsInOne
  obtain ⟨place, content, isPlace, found⟩ := Rung.exists_of_on_takeInstruction takesRung
  obtain ⟨gap, isGap, within, onRail⟩ :=
    Rung.exists_of_on_insertInstruction (soundBetween.openRung standsToo) putsRung
  have different : own ≠ other := by
    rintro rfl
    rw [isOwn, isOther] at apart
    simp [sameRung?, Address.ofNat] at apart
  obtain ⟨sourceRung, sourcePosition⟩ := source
  cases isOwn
  cases isPlace
  refine ⟨own, place, other, gap, rfl, isOther, isGap, ⟨content, ?_⟩, filled,
    (List.getElem?_set_ne different).symm.trans standsToo, within, onRail⟩
  rw [Routine.draftAt?, Routine.sources_getElem? stands]
  exact found

theorem mayMove_of_moveElement (laid : drawing.LaidOut) (exact : target.position.IsExact)
    (succeeds : drawing.apply (.moveElement source target) = (.ok answer, after)) :
    ∃ origin place goal gap, MayMove drawing.routine source target origin place goal gap := by
  have succeeds : (moveElement source target).on drawing = (.ok answer, after) := succeeds
  unfold moveElement at succeeds
  split at succeeds
  next same => exact mayMove_of_moveWithin laid exact (eq_of_sameRung? same) succeeds
  next apart => exact mayMove_of_moveAcross laid (Bool.eq_false_iff.mpr apart) succeeds

/-- What a move asks for is enough, and it says what the move does. -/
theorem LaidOut.exists_hasMoved (laid : drawing.LaidOut) {origin place goal gap : Nat}
    (may : MayMove drawing.routine source target origin place goal gap) :
    ∃ element content final,
      drawing.apply (.moveElement source target) = (.ok element, final) ∧
      drawing.routine.draftAt? origin place = some (.instruction content) ∧
      drawing.routine.HasMoved origin place goal gap element final.routine ∧
      final.routine.Places goal (landing origin place goal gap) target.rail content element := by
  obtain ⟨rfl, isGoal, isGap, ⟨content, found⟩, rung, stands, within, onRail⟩ := may
  obtain ⟨targetRung, targetPosition, targetRail, level⟩ := target
  cases isGoal
  cases isGap
  cases onRail
  obtain ⟨element, final, moves, laidFinal, turns, places⟩ :=
    laid.exists_moveElement found stands within level
  exact ⟨element, content, final, moves, found,
    Routine.hasMoved_of_turns laid.sound laidFinal.sound found turns places, places⟩

/--
After any run of edits an instruction is moved if and only if it stands at the source, and the
target is a gap that is named with the rail on which it lies before the move.  It is erased
where it stood and inserted into that gap, where it stands under its new position, and all
other elements of all rungs keep their order and all that they say of the branches around them.
Every target with a whole number is exact, and every other one but `2 ^ 53`.
-/
theorem moveElement_exact (config : LayoutConfig α) {routine : Routine}
    (reachable : routine.Reachable) (edits : List Edit) {drawing : Drawing α}
    (isRun : drawing = (ofRoutine config routine).2.run edits) (source : ElementAddress)
    (target : DropTarget) (exact : target.position.IsExact) :
    ((∃ element after, drawing.apply (.moveElement source target) = (.ok element, after)) ↔
      ∃ origin place goal gap, MayMove drawing.routine source target origin place goal gap) ∧
    ∀ element after, drawing.apply (.moveElement source target) = (.ok element, after) →
      ∃ origin place goal gap content,
        MayMove drawing.routine source target origin place goal gap ∧
        drawing.routine.draftAt? origin place = some (.instruction content) ∧
        drawing.routine.HasMoved origin place goal gap element after.routine ∧
        after.routine.Places goal (landing origin place goal gap) target.rail content
          element := by
  obtain ⟨start, makes, laidStart, _⟩ := exists_ofRoutine config reachable.isSound
  rw [makes] at isRun
  obtain ⟨laid, _⟩ : LaidOut drawing ∧ drawing.config = start.config :=
    isRun ▸ laidStart.run edits
  refine ⟨⟨?_, ?_⟩, ?_⟩
  · rintro ⟨element, after, succeeds⟩
    exact mayMove_of_moveElement laid exact succeeds
  · rintro ⟨origin, place, goal, gap, may⟩
    obtain ⟨element, _, final, succeeds, _⟩ := laid.exists_hasMoved may
    exact ⟨element, final, succeeds⟩
  · intro element after succeeds
    obtain ⟨origin, place, goal, gap, may⟩ := mayMove_of_moveElement laid exact succeeds
    obtain ⟨own, content, final, succeedsToo, found, moved, places⟩ := laid.exists_hasMoved may
    cases succeeds.symm.trans succeedsToo
    exact ⟨origin, place, goal, gap, content, may, found, moved, places⟩

/-- The contact of the upper rail goes behind the coil of its own rung. -/
def sampleMove : Edit :=
  .moveElement ⟨.ofNat 0, .ofNat 1⟩ ⟨.ofNat 0, .ofNat 6, none, none⟩

theorem moveElement_exact_of_sample :
    ∃ routine, Routine.ofSource Routine.sampleSource = .ok routine ∧
      ∃ (drawing after : Drawing Rat) (element : Element),
        drawing = (ofRoutine .standard routine).2 ∧
        drawing.apply sampleMove = (.ok element, after) ∧
        ∃ origin place goal gap,
          drawing.routine.HasMoved origin place goal gap element after.routine := by
  have moved : (Routine.ofSource Routine.sampleSource).toOption.map (fun routine =>
      ((ofRoutine (.standard : LayoutConfig Rat) routine).2.apply
        sampleMove).1.toOption.isSome) = some true := by
    decide +kernel
  obtain ⟨routine, loads, answered⟩ := exists_ok_of_map moved
  obtain ⟨element, after, moves⟩ := exists_ok_pair_of_isSome answered
  obtain ⟨origin, place, goal, gap, _, _, _, hasMoved, _⟩ :=
    (moveElement_exact .standard (.loaded loads) [] rfl _ _
      (Address.isExact_whole 6)).2 element after moves
  exact ⟨routine, loads, _, after, element, rfl, moves, origin, place, goal, gap, hasMoved⟩

end Drawing
end LadderDiagram
