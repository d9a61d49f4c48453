import LadderDiagram.Proofs.Drawing.Content
import LadderDiagram.Proofs.Drawing.Stale

/-!
# Edits of drawings that are laid out

An edit of a drawing that is laid out leaves it laid out.  If the edit fails, it has
changed nothing, or it has put everything back before it lays out the same routine
again; either way the routine is what it was.
-/

namespace LadderDiagram
namespace Drawing

variable {α β : Type} [Scalar α]

/-- Addresses of one rung are one address. -/
theorem eq_of_sameRung? {first second : Address} (same : sameRung? first second = true) :
    first = second := by
  unfold sameRung? at same
  split at same
  next own other => rw [beq_iff_eq.mp same]
  next => cases same

/-- An edit that keeps drawings laid out, and that leaves the routine as it was if it fails. -/
def KeepsLaidOut (edit : Action (Drawing α) β) : Prop :=
  ∀ drawing : Drawing α, LaidOut drawing →
    (∃ error after, error.IsOrdinary ∧ edit.on drawing = (.error error, after) ∧
      LaidOut after ∧ after.config = drawing.config ∧ after.routine = drawing.routine) ∨
    ∃ answer after, edit.on drawing = (.ok answer, after) ∧
      LaidOut after ∧ after.config = drawing.config

variable [ExactScalar α] {own : Instruction → Prop}

/-- An edit that succeeds on one rung succeeds on the drawing, which has the edited rung then. -/
theorem LaidOut.exists_editRung {drawing : Drawing α} (laid : LaidOut drawing) {index : Nat}
    {rung : Rung} (stands : drawing.routine.rungs[index]? = some rung)
    {edit : Action OpenRung β} {answer : β} {after : OpenRung}
    (edited : OpenRung.Edited own ⟨rung, drawing.routine.nextId⟩ after)
    (succeeds : edit.on ⟨rung, drawing.routine.nextId⟩ = (.ok answer, after)) :
    ∃ final, (editRung (.ofNat index) edit).on drawing = (.ok answer, final) ∧ LaidOut final ∧
      final.config = drawing.config ∧ final.routine = drawing.routine.withRung index after := by
  have stale : LaidOutBut (fun other => (other == index) = true)
      { drawing with routine := drawing.routine.withRung index after } :=
    (LaidOutBut.withRung laid stands edited).mono fun other _ same =>
      beq_iff_eq.mpr (same.resolve_left not_false)
  obtain ⟨final, relays, sameConfig, sameRoutine, laidFinal, _⟩ := stale.relay
  refine ⟨final, ?_, laidFinal, sameConfig, sameRoutine⟩
  unfold Drawing.editRung
  rw [Action.on_bind_ask, Routine.rungAt_of_getElem? stands]
  dsimp only
  rw [Action.on_bind, on_onRoutine, Routine.on_editRung_of_ok stands succeeds]
  dsimp only
  rw [Action.on_bind_of_ok (Action.on_undoing_of_ok _ relays)]
  rfl

omit [ExactScalar α] in
/-- An edit for which there is no rung changes nothing. -/
theorem on_editRung_of_rungAt {drawing : Drawing α} {address : Address} {error : LadderError}
    (fails : drawing.routine.rungAt address = .error error) (edit : Action OpenRung β) :
    (editRung address edit).on drawing = (.error error, drawing) := by
  unfold Drawing.editRung
  rw [Action.on_bind_ask, fails]

omit [ExactScalar α] in
/-- An edit that fails on its rung and leaves it as it was changes nothing. -/
theorem on_editRung_of_error {drawing : Drawing α} {index : Nat} {rung : Rung}
    (stands : drawing.routine.rungs[index]? = some rung) {edit : Action OpenRung β}
    {error : LadderError} (fails : edit.on ⟨rung, drawing.routine.nextId⟩ =
      (.error error, ⟨rung, drawing.routine.nextId⟩)) :
    (editRung (.ofNat index) edit).on drawing = (.error error, drawing) := by
  have unchanged : (Routine.editRung (.ofNat index) edit).on drawing.routine =
      (.error error, drawing.routine) := by
    unfold Routine.editRung
    rw [Action.on_bind_ask, Routine.rungAt_of_getElem? stands]
    dsimp only
    rw [Action.on_within, fails]
    simp only [Routine.setRung, set_of_getElem? stands]
  unfold Drawing.editRung
  rw [Action.on_bind_ask, Routine.rungAt_of_getElem? stands]
  dsimp only
  rw [Action.on_bind, on_onRoutine, unchanged]

/--
An edit of one rung fails on the drawing for want of the rung, or as it does on the rung itself,
and changes nothing then; otherwise the drawing has the edited rung.
-/
theorem LaidOut.editRung_cases {drawing : Drawing α} (laid : LaidOut drawing)
    {edit : Action OpenRung β} (atomic : Rung.IsAtomic own edit) (address : Address) :
    (∃ error, error.IsOrdinary ∧ drawing.routine.rungAt address = .error error ∧
      (editRung address edit).on drawing = (.error error, drawing)) ∨
    ∃ index rung, address = .ofNat index ∧ drawing.routine.rungs[index]? = some rung ∧
      ((∃ error, error.IsOrdinary ∧
          edit.on ⟨rung, drawing.routine.nextId⟩ =
            (.error error, ⟨rung, drawing.routine.nextId⟩) ∧
          (editRung address edit).on drawing = (.error error, drawing)) ∨
        ∃ answer state final, OpenRung.Edited own ⟨rung, drawing.routine.nextId⟩ state ∧
          edit.on ⟨rung, drawing.routine.nextId⟩ = (.ok answer, state) ∧
          (editRung address edit).on drawing = (.ok answer, final) ∧ LaidOut final ∧
          final.config = drawing.config ∧
          final.routine = drawing.routine.withRung index state) := by
  rcases drawing.routine.rungAt_cases address with
    ⟨error, ordinary, fails⟩ | ⟨index, rung, rfl, stands, _⟩
  · exact Or.inl ⟨error, ordinary, fails, on_editRung_of_rungAt fails edit⟩
  refine Or.inr ⟨index, rung, rfl, stands, ?_⟩
  rcases atomic _ (laid.sound.openRung stands) with
    ⟨error, ordinary, fails⟩ | ⟨answer, state, edited, succeeds⟩
  · exact Or.inl ⟨error, ordinary, fails, on_editRung_of_error stands fails⟩
  · obtain ⟨final, edits, laidFinal, sameConfig, sameRoutine⟩ :=
      laid.exists_editRung stands edited succeeds
    exact Or.inr ⟨answer, state, final, edited, succeeds, edits, laidFinal, sameConfig,
      sameRoutine⟩

/-- An edit of one rung that succeeds has succeeded on the rung that it names. -/
theorem LaidOut.exists_of_on_editRung {drawing after : Drawing α} (laid : LaidOut drawing)
    {edit : Action OpenRung β} (atomic : Rung.IsAtomic own edit) {address : Address} {answer : β}
    (succeeds : (editRung address edit).on drawing = (.ok answer, after)) :
    ∃ index rung state, address = .ofNat index ∧ drawing.routine.rungs[index]? = some rung ∧
      OpenRung.Edited own ⟨rung, drawing.routine.nextId⟩ state ∧
      edit.on ⟨rung, drawing.routine.nextId⟩ = (.ok answer, state) ∧ LaidOut after ∧
      after.config = drawing.config ∧ after.routine = drawing.routine.withRung index state := by
  rcases laid.editRung_cases atomic address with
    ⟨error, _, _, fails⟩ | ⟨index, rung, isIndex, stands, ⟨error, _, _, fails⟩ |
      ⟨_, state, final, edited, edits, succeedsToo, laidFinal, sameConfig, sameRoutine⟩⟩
  · cases succeeds.symm.trans fails
  · cases succeeds.symm.trans fails
  · cases succeeds.symm.trans succeedsToo
    exact ⟨index, rung, state, isIndex, stands, edited, edits, laidFinal, sameConfig,
      sameRoutine⟩

theorem editRung_keepsLaidOut {edit : Action OpenRung β} (atomic : Rung.IsAtomic own edit)
    (address : Address) : KeepsLaidOut (editRung (α := α) address edit) := by
  intro drawing laid
  rcases laid.editRung_cases atomic address with
    ⟨error, ordinary, _, fails⟩ | ⟨index, rung, _, _, ⟨error, ordinary, _, fails⟩ |
      ⟨answer, state, final, _, _, edits, laidFinal, sameConfig, _⟩⟩
  · exact Or.inl ⟨error, drawing, ordinary, fails, laid, rfl, rfl⟩
  · exact Or.inl ⟨error, drawing, ordinary, fails, laid, rfl, rfl⟩
  · exact Or.inr ⟨answer, final, edits, laidFinal, sameConfig⟩

/-- A move between two rungs that succeeds on the routine succeeds on the drawing. -/
theorem LaidOut.exists_moveAcross {drawing : Drawing α} (laid : LaidOut drawing)
    {origin goal : Nat} {giver taker another : Rung} {taken filled : OpenRung}
    {other : Instruction → Prop} {answer : Element} (source : ElementAddress)
    (target : DropTarget)
    (fromOrigin : source.rung = .ofNat origin) (toGoal : target.rung = .ofNat goal)
    (gives : drawing.routine.rungs[origin]? = some giver)
    (takes : drawing.routine.rungs[goal]? = some taker)
    (edited : OpenRung.Edited own ⟨giver, drawing.routine.nextId⟩ taken)
    (standsToo : (drawing.routine.withRung origin taken).rungs[goal]? = some another)
    (editedToo : OpenRung.Edited other ⟨another, taken.nextId⟩ filled)
    (succeeds : (carryOver source target).on drawing =
      (.ok answer, { drawing with
        routine := (drawing.routine.withRung origin taken).withRung goal filled })) :
    ∃ final, (moveAcross source target).on drawing = (.ok answer, final) ∧ LaidOut final ∧
      final.config = drawing.config ∧
      final.routine = (drawing.routine.withRung origin taken).withRung goal filled := by
  have staleOrigin := LaidOutBut.withRung laid gives edited
  have staleBoth : LaidOutBut (fun other => (other == origin || other == goal) = true)
      { drawing with
        routine := (drawing.routine.withRung origin taken).withRung goal filled } := by
    apply (LaidOutBut.withRung staleOrigin standsToo editedToo).mono
    rintro other _ ((none | isOrigin) | isGoal)
    · exact none.elim
    · simp [isOrigin]
    · simp [isGoal]
  obtain ⟨final, relays, sameConfig, sameRoutine, laidFinal, _⟩ := staleBoth.relay
  refine ⟨final, ?_, laidFinal, sameConfig, sameRoutine⟩
  unfold moveAcross
  rw [fromOrigin, toGoal, Action.on_bind_ask, Routine.rungAt_of_getElem? gives]
  dsimp only
  rw [Action.on_bind_ask, Routine.rungAt_of_getElem? takes]
  dsimp only
  apply Action.on_undoing_of_ok
  rw [Action.on_bind_of_ok succeeds, Action.on_bind_of_ok relays]
  rfl

theorem moveAcross_keepsLaidOut (source : ElementAddress) (target : DropTarget) :
    KeepsLaidOut (moveAcross (α := α) source target) := by
  intro drawing laid
  rcases drawing.routine.rungAt_cases source.rung with
    ⟨error, ordinary, fails⟩ | ⟨origin, giver, fromOrigin, gives, foundGiver⟩
  · refine Or.inl ⟨error, drawing, ordinary, ?_, laid, rfl, rfl⟩
    unfold moveAcross
    rw [Action.on_bind_ask, fails]
  rcases drawing.routine.rungAt_cases target.rung with
    ⟨error, ordinary, fails⟩ | ⟨goal, taker, toGoal, takes, foundTaker⟩
  · refine Or.inl ⟨error, drawing, ordinary, ?_, laid, rfl, rfl⟩
    unfold moveAcross
    rw [Action.on_bind_ask, foundGiver]
    dsimp only
    rw [Action.on_bind_ask, fails]
  rcases carryOver_cases (fun _ => True) source target laid.sound fromOrigin toGoal gives takes with
    ⟨error, after, ordinary, fails, putBack⟩ |
      ⟨answer, content, taken, another, filled, _, edited, standsToo, editedToo, succeeds⟩
  · -- Both rungs are what they were, so nothing is stale, and the pass finds it so.
    have nothing : LaidOutBut (fun other => (other == origin || other == goal) = true) drawing :=
      laid.mono fun _ _ none => none.elim
    obtain ⟨final, relays, sameConfig, sameRoutine, laidFinal, _⟩ := nothing.relay
    refine Or.inl ⟨error, final, ordinary, ?_, laidFinal, sameConfig, sameRoutine⟩
    unfold moveAcross
    rw [Action.on_bind_ask, foundGiver]
    dsimp only
    rw [Action.on_bind_ask, foundTaker]
    dsimp only
    apply Action.on_undoing_of_error
    · rw [Action.on_bind_of_error fails]
    · have giverBack : giver.restored = giver := (laid.sound.rungAt gives).restored_eq
      have takerBack : taker.restored = taker := (laid.sound.rungAt takes).restored_eq
      rw [Action.on_bind, on_restoreRung, giverBack]
      dsimp only
      rw [Action.on_bind, on_restoreRung, takerBack, putBack]
      exact relays
  · obtain ⟨final, moves, laidFinal, sameConfig, _⟩ :=
      laid.exists_moveAcross source target fromOrigin toGoal gives takes edited standsToo
        editedToo succeeds
    exact Or.inr ⟨answer, final, moves, laidFinal, sameConfig⟩

/-- A rung that is added to the routine is added to the drawing. -/
theorem LaidOut.exists_addRung {drawing : Drawing α} (laid : LaidOut drawing)
    {source : RungSource} {place : Option Address} {index nextId : Nat} {rung : Rung}
    (arises : Rung.Arises drawing.routine.nextId nextId rung)
    (within : index ≤ drawing.routine.size)
    (succeeds : (Routine.insertRung source (place.getD (.ofNat drawing.routine.size))).on
      drawing.routine = (.ok index, { drawing.routine with
        rungs := drawing.routine.rungs.insertIdx index rung, nextId := nextId })) :
    ∃ final, (addRung source place).on drawing = (.ok index, final) ∧ LaidOut final ∧
      final.config = drawing.config ∧ final.routine = { drawing.routine with
        rungs := drawing.routine.rungs.insertIdx index rung, nextId := nextId } := by
  have stale : LaidOutBut (fun other => decide (index ≤ other) = true)
      (drawing.withNewRung index rung nextId) :=
    (laid.withNewRung arises within).mono fun other _ behind => decide_eq_true behind
  obtain ⟨final, relays, sameConfig, sameRoutine, laidFinal, _⟩ := stale.relay
  refine ⟨final, ?_, laidFinal, sameConfig, sameRoutine⟩
  unfold addRung
  rw [Action.on_bind, Action.on_get]
  dsimp only
  rw [Action.on_bind, on_onRoutine, succeeds]
  dsimp only
  rw [Action.on_bind, Action.on_modify]
  exact Action.on_bind_of_ok relays _

theorem addRung_keepsLaidOut (source : RungSource) (place : Option Address) :
    KeepsLaidOut (addRung (α := α) source place) := by
  intro drawing laid
  rcases Routine.insertRung_cases source (place.getD (.ofNat drawing.routine.size))
      drawing.routine with
    ⟨error, ordinary, fails⟩ | ⟨index, rung, nextId, within, _, arises, succeeds⟩
  · refine Or.inl ⟨error, drawing, ordinary, ?_, laid, rfl, rfl⟩
    unfold addRung
    rw [Action.on_bind, Action.on_get]
    dsimp only
    rw [Action.on_bind, on_onRoutine, fails]
  · obtain ⟨final, adds, laidFinal, sameConfig, _⟩ := laid.exists_addRung arises within succeeds
    exact Or.inr ⟨index, final, adds, laidFinal, sameConfig⟩

/-- A rung that the routine has is removed from the drawing. -/
theorem LaidOut.exists_removeRung {drawing : Drawing α} (laid : LaidOut drawing) {index : Nat}
    (bounded : index < drawing.routine.size) :
    ∃ final, (removeRung (.ofNat index)).on drawing = (.ok (), final) ∧ LaidOut final ∧
      final.config = drawing.config ∧
      final.routine = { drawing.routine with rungs := drawing.routine.rungs.eraseIdx index } := by
  have stale : LaidOutBut (fun other => decide (index ≤ other) = true)
      (drawing.withoutRung index) :=
    (laid.withoutRung bounded).mono fun other _ behind => decide_eq_true behind
  obtain ⟨final, relays, sameConfig, sameRoutine, laidFinal, _⟩ := stale.relay
  refine ⟨final, ?_, laidFinal, sameConfig, sameRoutine⟩
  have stands : drawing.routine.rungs[index]? = some _ := List.getElem?_eq_getElem bounded
  unfold removeRung
  rw [Action.on_bind, on_onRoutine, Routine.removeRung, Action.on_bind_ask,
    Routine.rungAt_of_getElem? stands]
  dsimp only
  rw [Action.on_bind, Action.on_modify]
  dsimp only
  rw [Action.on_pure]
  dsimp only
  rw [Action.on_bind, Action.on_modify]
  exact relays

theorem removeRung_keepsLaidOut (address : Address) :
    KeepsLaidOut (removeRung (α := α) address) := by
  intro drawing laid
  rcases Routine.removeRung_cases address drawing.routine with
    ⟨error, ordinary, fails⟩ | ⟨index, rung, rfl, stands, _⟩
  · refine Or.inl ⟨error, drawing, ordinary, ?_, laid, rfl, rfl⟩
    unfold removeRung
    rw [Action.on_bind, on_onRoutine, fails]
  · obtain ⟨bounded, _⟩ := List.getElem?_eq_some_iff.mp stands
    obtain ⟨final, removes, laidFinal, sameConfig, _⟩ := laid.exists_removeRung bounded
    exact Or.inr ⟨(), final, removes, laidFinal, sameConfig⟩

theorem act_keepsLaidOut (edit : Edit) : KeepsLaidOut (act (α := α) edit) :=
  act_cases (fun _ action => KeepsLaidOut action)
    (fun _ _ atomic address => editRung_keepsLaidOut atomic address) moveAcross_keepsLaidOut
    addRung_keepsLaidOut removeRung_keepsLaidOut edit edit.brings_anything

end Drawing
end LadderDiagram
