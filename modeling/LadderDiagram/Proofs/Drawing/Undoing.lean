import LadderDiagram.Proofs.Drawing.Run
import LadderDiagram.Proofs.Rung.Undoing

/-!
# Insertions that are taken back

Taking back what has just been put in leaves the rungs as they were.  A drawing that is laid
out shows what its rungs determine, whatever handles have been taken on the way, so all of its
records are then what they were too: those of the rungs that slid down and up again, and those
of the branches that were numbered twice.
-/

namespace LadderDiagram
namespace Drawing

variable {α β γ : Type} [Scalar α]

/-- All that one drawing shows is what another one has shown. -/
structure Restores (final drawing : Drawing α) : Prop where
  config_eq : final.config = drawing.config
  name_eq : final.routine.name = drawing.routine.name
  rungs_eq : final.routine.rungs = drawing.routine.rungs
  bands_eq : final.bands = drawing.bands
  layouts_eq : final.layouts = drawing.layouts
  arena_eq : final.arena = drawing.arena
  extent_eq : final.extent = drawing.extent

/-- What is laid out does not depend on the handles that have been taken. -/
theorem LaidOut.withNextId {drawing : Drawing α} (laid : LaidOut drawing) {nextId : Nat}
    (sound : Routine.IsSound { drawing.routine with nextId := nextId }) :
    LaidOut { drawing with routine := { drawing.routine with nextId := nextId } } := by
  refine ⟨sound, laid.bands_length, laid.layouts_length, laid.sorted, laid.numbered, ?_⟩
  intro index rung stands fresh
  obtain ⟨layout, draws⟩ := laid.draws index rung stands fresh
  exact ⟨layout, draws.congr rfl stands (fun _ _ => rfl) rfl fun _ _ => Iff.rfl⟩

/-- Two drawings of the same rungs that are laid out show the same. -/
theorem LaidOut.restores {drawing final : Drawing α} (laid : LaidOut drawing)
    (laidFinal : LaidOut final) (sameConfig : final.config = drawing.config)
    (sameName : final.routine.name = drawing.routine.name)
    (sameRungs : final.routine.rungs = drawing.routine.rungs) : final.Restores drawing := by
  have sameRoutine :
      final.routine = { drawing.routine with nextId := final.routine.nextId } := by
    dsimp only
    rw [← sameName, ← sameRungs]
  have laidToo := laid.withNextId (sameRoutine ▸ laidFinal.sound)
  have shows := laidToo.unique laidFinal sameConfig sameRoutine
  rw [shows]
  exact ⟨rfl, rfl, rfl, rfl, rfl, rfl, rfl⟩

variable [ExactScalar α] {own : Instruction → Prop}

/-- An edit of a rung is taken back on the drawing by what takes it back on the rung. -/
theorem LaidOut.editRung_undone {drawing after : Drawing α} (laid : LaidOut drawing)
    {edit : Action OpenRung β} {undo : β → Action OpenRung γ} (atomic : Rung.IsAtomic own edit)
    (atomicUndo : ∀ answer, Rung.IsAtomic own (undo answer)) (undone : Rung.IsUndoneBy edit undo)
    {address : Address} {answer : β}
    (succeeds : (editRung address edit).on drawing = (.ok answer, after)) :
    ∃ removed final, (editRung address (undo answer)).on after = (.ok removed, final) ∧
      final.Restores drawing := by
  obtain ⟨index, rung, state, rfl, stands, edited, edits, laidAfter, sameConfig, sameRoutine⟩ :=
    laid.exists_of_on_editRung atomic succeeds
  obtain ⟨removed, undoes⟩ := undone _ state answer (laid.sound.openRung stands) edits
  obtain ⟨bounded, _⟩ := List.getElem?_eq_some_iff.mp stands
  have standsAfter : after.routine.rungs[index]? = some state.rung := by
    rw [sameRoutine]
    exact List.getElem?_set_self bounded
  have sameId : after.routine.nextId = state.nextId := congrArg Routine.nextId sameRoutine
  have stateEq : (⟨state.rung, after.routine.nextId⟩ : OpenRung) = state := by rw [sameId]
  obtain ⟨final, succeedsFinal, laidFinal, finalConfig, finalRoutine⟩ :=
    laidAfter.exists_editRung standsAfter
      (stateEq ▸ (atomicUndo answer).edited edited.sound undoes) (stateEq ▸ undoes)
  refine ⟨removed, final, succeedsFinal, laid.restores laidFinal (finalConfig.trans sameConfig)
    ?_ ?_⟩
  · rw [finalRoutine, sameRoutine]
    rfl
  · have back := congrArg Routine.rungs (Routine.withRung_setRung stands state)
    rw [finalRoutine, sameRoutine]
    exact back

/-- A rung that has been added is taken back by removing the rung with its number. -/
theorem LaidOut.addRung_undone {drawing after : Drawing α} (laid : LaidOut drawing)
    {source : RungSource} {place : Option Address} {index : Nat}
    (succeeds : (addRung source place).on drawing = (.ok index, after)) :
    place.getD (.ofNat drawing.routine.size) = .ofNat index ∧
      ∃ final, (removeRung (.ofNat index)).on after = (.ok (), final) ∧
        final.Restores drawing := by
  rcases Routine.insertRung_cases source (place.getD (.ofNat drawing.routine.size))
      drawing.routine with
    ⟨error, _, fails⟩ | ⟨number, rung, nextId, within, named, arises, inserts⟩
  · unfold addRung at succeeds
    rw [Action.on_bind, Action.on_get] at succeeds
    dsimp only at succeeds
    rw [Action.on_bind, on_onRoutine, fails] at succeeds
    cases succeeds
  obtain ⟨own, adds, laidAfter, sameConfig, sameRoutine⟩ :=
    laid.exists_addRung arises within inserts
  rw [succeeds] at adds
  cases adds
  refine ⟨named, ?_⟩
  have bounded : index < after.routine.size := by
    rw [sameRoutine]
    change index < (drawing.routine.rungs.insertIdx index rung).length
    rw [List.length_insertIdx_of_le_length within]
    exact Nat.lt_succ_of_le within
  obtain ⟨final, removes, laidFinal, finalConfig, finalRoutine⟩ :=
    laidAfter.exists_removeRung bounded
  refine ⟨final, removes, laid.restores laidFinal (finalConfig.trans sameConfig) ?_ ?_⟩
  · rw [finalRoutine, sameRoutine]
  · rw [finalRoutine, sameRoutine]
    exact List.eraseIdx_insertIdx_self rung

/--
After any run of edits, an instruction that is put in is taken back by deleting what stands at
its position, a rail that is opened by removing it by its handle, and a rung that is added by
removing the rung with its number: all rungs and all that is drawn of them are what they were.
-/
theorem insertions_undone (config : LayoutConfig α) {routine : Routine}
    (reachable : routine.Reachable) (edits : List Edit) {drawing : Drawing α}
    (isRun : drawing = (ofRoutine config routine).2.run edits) :
    (∀ rung position rail content element after,
      drawing.apply (.insertInstruction rung position rail content) = (.ok element, after) →
        ∃ removed final, after.apply (.deleteElement rung position) = (.ok removed, final) ∧
          final.Restores drawing) ∧
    (∀ rung position id after,
      drawing.apply (.insertBranchLevel rung position) = (.ok id, after) →
        ∃ removed final, after.apply (.removeBranch rung id) = (.ok removed, final) ∧
          final.Restores drawing) ∧
    ∀ source place index after, drawing.apply (.addRung source place) = (.ok index, after) →
      place.getD (.ofNat drawing.routine.size) = .ofNat index ∧
        ∃ final, after.apply (.removeRung (.ofNat index)) = (.ok (), final) ∧
          final.Restores drawing := by
  obtain ⟨start, makes, laidStart, _⟩ := exists_ofRoutine config reachable.isSound
  rw [makes] at isRun
  obtain ⟨laid, _⟩ : LaidOut drawing ∧ drawing.config = start.config :=
    isRun ▸ laidStart.run edits
  have atomicDelete (position : Address) :
      Rung.IsAtomic (fun _ => True) (Rung.deleteElement position) :=
    Rung.deleteElement_isAtomic position
  have atomicRemove (id : BranchId) : Rung.IsAtomic (fun _ => True) (Rung.removeBranch id) :=
    Rung.removeBranch_isAtomic id
  refine ⟨fun rung position rail content element after succeeds => ?_,
    fun rung position id after succeeds => ?_, fun source place index after succeeds =>
      laid.addRung_undone succeeds⟩
  · exact laid.editRung_undone (Rung.insertInstruction_isAtomic position rail trivial)
      (fun _ => atomicDelete position)
      (Rung.insertInstruction_isUndoneBy position rail content) succeeds
  · exact laid.editRung_undone (Rung.insertBranchLevel_isAtomic position) atomicRemove
      (Rung.insertBranchLevel_isUndoneBy position) succeeds

/-- Between the two rails of a branch a third one is opened and removed again. -/
theorem insertions_undone_of_sample :
    ∃ routine, Routine.ofSource Routine.sampleSource = .ok routine ∧
      ∃ (drawing after final : Drawing Rat) (id : BranchId) (removed : List Element),
        drawing = (ofRoutine .standard routine).2 ∧
        drawing.apply (.insertBranchLevel (.ofNat 0) (.ofNat 0)) = (.ok id, after) ∧
        after.apply (.removeBranch (.ofNat 0) id) = (.ok removed, final) ∧
        final.Restores drawing := by
  have opened : (Routine.ofSource Routine.sampleSource).toOption.map (fun routine =>
      ((ofRoutine (.standard : LayoutConfig Rat) routine).2.apply
        (.insertBranchLevel (.ofNat 0) (.ofNat 0))).1.toOption.isSome) = some true := by
    decide +kernel
  obtain ⟨routine, loads, answered⟩ := exists_ok_of_map opened
  obtain ⟨id, after, inserts⟩ := exists_ok_pair_of_isSome answered
  obtain ⟨removed, final, removes, restores⟩ :=
    (insertions_undone .standard (.loaded loads) [] rfl).2.1 _ _ id after inserts
  exact ⟨routine, loads, _, after, final, id, removed, rfl, inserts, removes, restores⟩

end Drawing
end LadderDiagram
