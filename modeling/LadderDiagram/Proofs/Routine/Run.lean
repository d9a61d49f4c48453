import LadderDiagram.Proofs.Routine.Sound

/-!
# Runs of edits of a routine

A routine is read from a source and then goes through any number of edits, each of
which may fail.  An edit changes one rung, adds one, removes one, or tries out
edits of some rungs and gives some of the rungs back what they were before, while the
handles taken meanwhile stay taken.  Soundness holds at the start and is kept by
every step, so it holds after every run.
-/

namespace LadderDiagram

inductive RungEdit
  | insertInstruction (position : Address) (rail : Option BranchId) (instruction : Instruction)
  | moveInstruction (source target : Address) (rail : Option BranchId)
  | replaceInstruction (position : Address) (instruction : Instruction)
  | removeInstruction (position : Address)
  | insertBranch (first last : Address) (rail : Option BranchId)
  | insertBranchLevel (position : Address)
  | moveBranch (id : BranchId) (target : Address) (rail : Option BranchId)
  | removeBranch (id : BranchId)
  | deleteElement (position : Address)
  | setComment (comment : Option String)

namespace RungEdit

def act : RungEdit → Action OpenRung Unit
  | .insertInstruction position rail instruction =>
      (fun _ => ()) <$> Rung.insertInstruction position rail instruction
  | .moveInstruction source target rail =>
      (fun _ => ()) <$> Rung.moveInstruction source target rail
  | .replaceInstruction position instruction =>
      (fun _ => ()) <$> Rung.replaceInstruction position instruction
  | .removeInstruction position => (fun _ => ()) <$> Rung.removeInstruction position
  | .insertBranch first last rail => (fun _ => ()) <$> Rung.insertBranch first last rail
  | .insertBranchLevel position => (fun _ => ()) <$> Rung.insertBranchLevel position
  | .moveBranch id target rail => (fun _ => ()) <$> Rung.moveBranch id target rail
  | .removeBranch id => (fun _ => ()) <$> Rung.removeBranch id
  | .deleteElement position => (fun _ => ()) <$> Rung.deleteElement position
  | .setComment comment => Rung.setComment comment

/-- Every edit keeps sound rungs sound. -/
theorem isAtomic (edit : RungEdit) : Rung.IsAtomic (fun _ => True) edit.act := by
  cases edit with
  | insertInstruction position rail instruction =>
      exact (Rung.insertInstruction_isAtomic position rail trivial).map _
  | moveInstruction source target rail =>
      exact (Rung.moveInstruction_isAtomic source target rail).map _
  | replaceInstruction position instruction =>
      exact (Rung.replaceInstruction_isAtomic position trivial).map _
  | removeInstruction position =>
      exact ((Rung.takeInstruction_isAtomic position).map Prod.fst).map _
  | insertBranch first last rail => exact (Rung.insertBranch_isAtomic first last rail).map _
  | insertBranchLevel position => exact (Rung.insertBranchLevel_isAtomic position).map _
  | moveBranch id target rail => exact (Rung.moveBranch_isAtomic id target rail).map _
  | removeBranch id => exact (Rung.removeBranch_isAtomic id).map _
  | deleteElement position => exact (Rung.deleteElement_isAtomic position).map _
  | setComment comment => exact Rung.setComment_isAtomic comment

end RungEdit

inductive RoutineEdit
  | editRung (rung : Address) (edit : RungEdit)
  | addRung (source : RungSource) (place : Address)
  | removeRung (rung : Address)
  /-- Edits some rungs and gives those that were kept back what they were before. -/
  | tryEdits (kept : List Nat) (edits : List (Address × RungEdit))

namespace Routine

/-- The routine after edits of its rungs, some of which may fail. -/
def editRungs (routine : Routine) (edits : List (Address × RungEdit)) : Routine :=
  edits.foldl (fun routine edit => ((editRung edit.1 edit.2.act).on routine).2) routine

/-- The routine with some rungs as they were before. -/
def restoreRungs (before : Routine) (kept : List Nat) (routine : Routine) : Routine :=
  kept.foldl
    (fun routine index =>
      match before.rungs[index]? with
      | some rung => ((restoreRung index rung).on routine).2
      | none => routine)
    routine

end Routine

/-- What an edit does to a routine, without its answer. -/
def RoutineEdit.act : RoutineEdit → Action Routine Unit
  | .editRung rung edit => Routine.editRung rung edit.act
  | .addRung source place => (fun _ => ()) <$> Routine.insertRung source place
  | .removeRung rung => (fun _ => ()) <$> Routine.removeRung rung
  | .tryEdits kept edits => modify fun before => before.restoreRungs kept (before.editRungs edits)

namespace Routine

/-- The routines that come from a source by edits, whether they succeed or fail. -/
inductive Reachable : Routine → Prop
  | loaded {source : RoutineSource} {routine : Routine} :
      ofSource source = .ok routine → Reachable routine
  | edited {routine : Routine} (edit : RoutineEdit) :
      Reachable routine → Reachable (edit.act.on routine).2

variable {before routine : Routine}

/-! ### Loading -/

theorem isSound_named (name : String) : IsSound { empty with name := name } := by
  refine ⟨?_, List.nodup_nil, ?_⟩
  · exact fun rung member => absurd member List.not_mem_nil
  · exact fun id member => absurd member List.not_mem_nil

theorem appendRungs_cases (sources : List RungSource) (sound : routine.IsSound)
    (holds : routine.Holds Instruction.IsRead) (commented : routine.IsCommented) :
    (∃ error after, error.IsOrdinary ∧
        (appendRungs sources).on routine = (.error error, after)) ∨
      ∃ after, after.IsSound ∧ after.Holds Instruction.IsRead ∧ after.IsCommented ∧
        (appendRungs sources).on routine = (.ok (), after) := by
  induction sources generalizing routine with
  | nil => exact Or.inr ⟨routine, sound, holds, commented, rfl⟩
  | cons source rest ih =>
      unfold appendRungs
      rw [Action.on_bind, Action.on_get]
      dsimp only
      rcases insertRung_cases source (.ofNat routine.size) routine with
        ⟨error, ordinary, fails⟩ | ⟨index, rung, nextId, within, _, arises, inserts⟩
      · exact Or.inl ⟨error, routine, ordinary, Action.on_bind_of_error fails _⟩
      · rw [Action.on_bind_of_ok inserts]
        exact ih (sound.insertIdx arises within)
          (holds.insertIdx (fun _ isRead => isRead) arises within)
          (commented.insertIdx arises within)

/-- A source fails for an ordinary reason or gives a sound routine of what it writes. -/
theorem ofSource_cases (source : RoutineSource) :
    (∃ error, error.IsOrdinary ∧ ofSource source = .error error) ∨
      ∃ routine, routine.IsSound ∧ routine.Holds Instruction.IsRead ∧ routine.IsCommented ∧
        ofSource source = .ok routine := by
  unfold ofSource
  have none : Holds Instruction.IsRead { empty with name := source.name.getD defaultName } :=
    fun rung member => absurd member List.not_mem_nil
  have noneCommented : IsCommented { empty with name := source.name.getD defaultName } :=
    fun rung member => absurd member List.not_mem_nil
  rcases appendRungs_cases source.rungs (isSound_named (source.name.getD defaultName)) none
      noneCommented with
    ⟨error, after, ordinary, fails⟩ | ⟨after, sound, holds, commented, reads⟩
  · refine Or.inl ⟨error, ordinary, ?_⟩
    simp only [fails]
  · refine Or.inr ⟨after, sound, holds, commented, ?_⟩
    simp only [reads]

/-! ### Trying out edits -/

/-- One routine follows from another one by edits of rungs, some of which may be taken back. -/
structure Descends (before after : Routine) : Prop where
  nextId_le : before.nextId ≤ after.nextId
  handles : ∀ (index : Nat) (rung : Rung), after.rungs[index]? = some rung → ∃ old : Rung,
    before.rungs[index]? = some old ∧
      ∀ id ∈ rung.handles, id ∈ old.handles ∨ id.LiesIn before.nextId after.nextId

theorem Descends.refl (routine : Routine) : Descends routine routine :=
  ⟨Nat.le_refl _, fun _ rung stands => ⟨rung, stands, fun _ member => Or.inl member⟩⟩

/-- An edit of a rung stays among the descendants of a routine. -/
theorem Descends.editRung (descends : Descends before routine) (sound : routine.IsSound)
    (address : Address) (edit : RungEdit) :
    ((Routine.editRung address edit.act).on routine).2.IsSound ∧
      Descends before ((Routine.editRung address edit.act).on routine).2 := by
  rcases editRung_cases edit.isAtomic address sound with
    ⟨error, _, fails⟩ | ⟨index, rung, answer, after, _, stands, edited, _, succeeds⟩
  · rw [fails]
    exact ⟨sound, descends⟩
  rw [succeeds]
  refine ⟨sound.withRung stands edited, Nat.le_trans descends.nextId_le edited.nextId_le, ?_⟩
  intro other another standsToo
  by_cases same : other = index
  · subst same
    obtain ⟨bounded, _⟩ := List.getElem?_eq_some_iff.mp stands
    obtain rfl : after.rung = another :=
      Option.some.inj ((List.getElem?_set_self bounded).symm.trans standsToo)
    obtain ⟨old, stood, earlier⟩ := descends.handles other rung stands
    refine ⟨old, stood, fun id member => ?_⟩
    rcases edited.openedIds member with kept | new
    · exact (earlier id kept).imp_right (·.mono (Nat.le_refl _) edited.nextId_le)
    · exact Or.inr (new.mono descends.nextId_le (Nat.le_refl _))
  · have unchanged : routine.rungs[other]? = some another :=
      (List.getElem?_set_ne (Ne.symm same)).symm.trans standsToo
    obtain ⟨old, stood, earlier⟩ := descends.handles other another unchanged
    exact ⟨old, stood, fun id member =>
      (earlier id member).imp_right (·.mono (Nat.le_refl _) edited.nextId_le)⟩

/--
A rung that is given back what it was before shares no handle with the others:
theirs are those that they had before, or have been taken since.
-/
theorem Descends.restoreRung (descends : Descends before routine) (soundBefore : before.IsSound)
    (sound : routine.IsSound) {index : Nat} {old : Rung}
    (stood : before.rungs[index]? = some old) :
    ((Routine.restoreRung index old).on routine).2.IsSound ∧
      Descends before ((Routine.restoreRung index old).on routine).2 := by
  have restored : ((Routine.restoreRung index old).on routine).2 = routine.setRung index old := by
    unfold Routine.restoreRung
    rw [Action.on_modify, (soundBefore.rungAt stood).restored_eq]
  rw [restored]
  have oldGiven : ∀ id ∈ old.handles, id.LiesIn 0 before.nextId :=
    fun id member => soundBefore.given id (mem_handles_of_getElem? stood member)
  constructor
  · cases stands : routine.rungs[index]? with
    | none =>
        have beyond := List.getElem?_eq_none_iff.mp stands
        unfold setRung
        rw [List.set_eq_of_length_le beyond]
        exact sound
    | some rung =>
        apply sound.setRung stands (soundBefore.rungAt stood) (Nat.le_refl _)
        · exact fun id member => (oldGiven id member).mono (Nat.le_refl _) descends.nextId_le
        · intro other remaining different standsToo id member elsewhere
          obtain ⟨earlier, stoodToo, kept⟩ := descends.handles other remaining standsToo
          rcases kept id elsewhere with before | since
          · exact soundBefore.apart stood different stoodToo member before
          · exact (oldGiven id member).ne since rfl
  · refine ⟨descends.nextId_le, fun other another standsToo => ?_⟩
    by_cases same : other = index
    · subst same
      obtain ⟨bounded, isOld⟩ := List.getElem?_eq_some_iff.mp standsToo
      obtain rfl : old = another := (List.getElem_set_self bounded).symm.trans isOld
      exact ⟨old, stood, fun id member => Or.inl member⟩
    · exact descends.handles other another
        ((List.getElem?_set_ne (Ne.symm same)).symm.trans standsToo)

theorem IsSound.editRungs (sound : before.IsSound) (edits : List (Address × RungEdit)) :
    (before.editRungs edits).IsSound ∧ Descends before (before.editRungs edits) := by
  have steps : ∀ routine : Routine, routine.IsSound → Descends before routine →
      (routine.editRungs edits).IsSound ∧ Descends before (routine.editRungs edits) := by
    induction edits with
    | nil => exact fun routine sound descends => ⟨sound, descends⟩
    | cons edit rest ih =>
        intro routine sound descends
        obtain ⟨editedSound, editedDescends⟩ := descends.editRung sound edit.1 edit.2
        exact ih _ editedSound editedDescends
  exact steps before sound (.refl before)

theorem Descends.restoreRungs (descends : Descends before routine) (soundBefore : before.IsSound)
    (sound : routine.IsSound) (kept : List Nat) : (before.restoreRungs kept routine).IsSound := by
  induction kept generalizing routine with
  | nil => exact sound
  | cons index rest ih =>
      unfold Routine.restoreRungs
      rw [List.foldl_cons]
      cases stood : before.rungs[index]? with
      | none => exact ih descends sound
      | some old =>
          obtain ⟨restoredSound, restoredDescends⟩ :=
            descends.restoreRung soundBefore sound stood
          exact ih restoredDescends restoredSound

/-! ### Steps and runs -/

/-- One edit keeps a routine sound and fails for ordinary reasons only. -/
theorem IsSound.step (sound : routine.IsSound) (edit : RoutineEdit) :
    (edit.act.on routine).2.IsSound ∧
      ∀ error, (edit.act.on routine).1 = .error error → error.IsOrdinary := by
  have atFailure {error : LadderError} (ordinary : error.IsOrdinary)
      (fails : edit.act.on routine = (.error error, routine)) :
      (edit.act.on routine).2.IsSound ∧
        ∀ error, (edit.act.on routine).1 = .error error → error.IsOrdinary := by
    rw [fails]
    refine ⟨sound, ?_⟩
    rintro _ ⟨⟩
    exact ordinary
  have succeeded {answer : Unit} (error : LadderError)
      (fails : Except.ok answer = Except.error error) : error.IsOrdinary := by
    cases fails
  cases edit with
  | editRung address edit =>
      rcases editRung_cases edit.isAtomic address sound with
        ⟨error, ordinary, fails⟩ | ⟨index, rung, answer, after, _, stands, edited, _, succeeds⟩
      · exact atFailure ordinary fails
      · rw [RoutineEdit.act, succeeds]
        exact ⟨sound.withRung stands edited, succeeded⟩
  | addRung source place =>
      rcases insertRung_cases source place routine with
        ⟨error, ordinary, fails⟩ | ⟨index, rung, nextId, within, _, arises, succeeds⟩
      · apply atFailure ordinary
        rw [RoutineEdit.act, Action.on_map, fails]
        rfl
      · rw [RoutineEdit.act, Action.on_map, succeeds]
        exact ⟨sound.insertIdx arises within, succeeded⟩
  | removeRung address =>
      rcases removeRung_cases address routine with
        ⟨error, ordinary, fails⟩ | ⟨index, rung, _, stands, succeeds⟩
      · apply atFailure ordinary
        rw [RoutineEdit.act, Action.on_map, fails]
        rfl
      · rw [RoutineEdit.act, Action.on_map, succeeds]
        exact ⟨sound.eraseIdx index, succeeded⟩
  | tryEdits kept edits =>
      obtain ⟨editedSound, descends⟩ := sound.editRungs edits
      rw [RoutineEdit.act, Action.on_modify]
      exact ⟨descends.restoreRungs sound editedSound kept, succeeded⟩

theorem Reachable.isSound (reachable : routine.Reachable) : routine.IsSound := by
  induction reachable with
  | @loaded source routine loads =>
      rcases ofSource_cases source with ⟨error, _, fails⟩ | ⟨own, sound, _, _, reads⟩
      · rw [fails] at loads
        cases loads
      · obtain rfl : own = routine := Except.ok.inj (reads.symm.trans loads)
        exact sound
  | edited edit _ sound => exact (sound.step edit).1

/-!
### What every run of edits keeps

Soundness is stated in the terms of the proofs; here it is spelled out.  Each rung is
what annotation makes of its drafts, its positions count from zero, every start
marker has one end marker, and its depth is the one counted anew.  Handles are never
shared, neither within a rung nor between rungs, and they stay below the next free
one.  So no edit ever meets markers that do not pair up.
-/

theorem Reachable.invariant {routine : Routine} (reachable : routine.Reachable) :
    (∀ rung ∈ routine.rungs,
      annotate (drafts rung.elements) = .ok rung.elements ∧
      rung.elements.map Element.position =
        (List.range rung.elements.length).map Address.ofNat ∧
      (∀ start id, (drafts rung.elements)[start]? = some (.branchStart id) →
        ∃ finish, start < finish ∧
          IsBranch id (((drafts rung.elements).take (finish + 1)).drop start) ∧
          ∀ place, (drafts rung.elements)[place]? = some (.branchEnd id) ↔ place = finish) ∧
      rung.depth = branchDepth rung.elements) ∧
    routine.handles.Nodup ∧
    (∀ id ∈ routine.handles, ∃ value < routine.nextId, id = .ofNat value) ∧
    ∀ (edit : RoutineEdit) (error : LadderError),
      (edit.act.on routine).1 = .error error → error.code ≠ .unbalancedBranch := by
  have sound := reachable.isSound
  refine ⟨?_, sound.distinct, ?_, fun edit => (sound.step edit).2⟩
  · intro rung member
    have rungSound := sound.rungs rung member
    refine ⟨rungSound.annotated, positions_of_annotate rungSound.annotated, ?_, rungSound.depth_eq⟩
    exact fun start id opens => rungSound.wellNested.exists_end opens
  · intro id member
    obtain ⟨value, _, below, named⟩ := sound.given id member
    exact ⟨value, below, named⟩

/-- Two rungs that are read, and a branch that is then put into the second one. -/
def sampleSource : RoutineSource :=
  ⟨none, [⟨some "[XIC(A),XIO(B)]OTE(C);", none⟩, ⟨some "OTE(D);", none⟩]⟩

def sampleEdit : RoutineEdit :=
  .editRung (.ofNat 1) (.insertBranch (.ofNat 0) (.ofNat 1) none)

theorem reachable_invariant_of_sample :
    ∃ routine, ofSource sampleSource = .ok routine ∧
      (sampleEdit.act.on routine).2.handles = [0, 1, 2, 3].map Address.ofNat ∧
      (sampleEdit.act.on routine).2.handles.Nodup := by
  have computed : (ofSource sampleSource).toOption.map
      (fun routine => (sampleEdit.act.on routine).2.handles) =
        some ([0, 1, 2, 3].map Address.ofNat) := by
    decide +kernel
  obtain ⟨routine, loads, handles⟩ := exists_ok_of_map computed
  have reachable : Reachable (sampleEdit.act.on routine).2 := .edited sampleEdit (.loaded loads)
  exact ⟨routine, loads, handles, (Reachable.invariant reachable).2.1⟩

end Routine
end LadderDiagram
