import LadderDiagram.Proofs.Drawing.Renaming
import LadderDiagram.Proofs.Rung.Uniform

/-!
# Edits of two rungs

An edit of one rung looks at this rung only and changes no other one, but it takes handles from
the supply that all rungs share.  So two edits of different rungs can be made in either order:
each of them fails alike in both, and the routines they leave differ in the handles that the two
edits have taken, whose blocks have changed places.  A drawing that is laid out shows what its
routine determines, so the drawings are alike too, although the lower one of the two rungs may
have been laid out once in one order and twice in the other.
-/

namespace LadderDiagram

/-- The address of the rung on which an edit is made, if it is made on one alone. -/
def Edit.rung? : Edit → Option Address
  | .insertInstruction rung _ _ _ => some rung
  | .replaceInstruction rung _ _ => some rung
  | .deleteElement rung _ => some rung
  | .insertBranch rung _ _ _ => some rung
  | .insertBranchLevel rung _ => some rung
  | .moveBranch rung _ _ _ => some rung
  | .removeBranch rung _ => some rung
  | .moveElement _ _ => none
  | .setComment rung _ => some rung
  | .addRung _ _ => none
  | .removeRung _ => none

/-! ### Blocks of handles that change places -/

/-- A number, once two blocks of numbers that adjoin have changed places. -/
def swapBlocks (start first second value : Nat) : Nat :=
  if value < start then value
  else if value < start + first then value + second
  else if value < start + first + second then value - first
  else value

section Swap

variable {start first second : Nat}

/-- Two blocks that change places twice are where they were. -/
theorem swapBlocks_swapBlocks (value : Nat) :
    swapBlocks start second first (swapBlocks start first second value) = value := by
  unfold swapBlocks
  split_ifs <;> omega

theorem swapBlocks_injective : Function.Injective (swapBlocks start first second) :=
  Function.LeftInverse.injective swapBlocks_swapBlocks

/-- The handles of two blocks that adjoin, with the blocks in the other order. -/
def swapHandles (start first second : Nat) : BranchId → BranchId :=
  BranchId.renumbered (swapBlocks start first second)

theorem swapHandles_first {place : Nat} (within : place < first) :
    swapHandles start first second (.ofNat (start + place)) = .ofNat (start + second + place) := by
  refine congrArg Address.ofNat ?_
  unfold swapBlocks
  split_ifs <;> omega

theorem swapHandles_second {place : Nat} (within : place < second) :
    swapHandles start first second (.ofNat (start + first + place)) = .ofNat (start + place) := by
  refine congrArg Address.ofNat ?_
  unfold swapBlocks
  split_ifs <;> omega

theorem swapHandles_of_not_liesIn {id : BranchId}
    (outside : ¬ id.LiesIn start (start + first + second)) :
    swapHandles start first second id = id := by
  unfold swapHandles BranchId.renumbered
  cases isNumber : id.toNat? with
  | none => rfl
  | some value =>
      obtain rfl := Address.toNat?_eq_some_iff.mp isNumber
      have apart : ¬ (start ≤ value ∧ value < start + first + second) := fun inside =>
        outside (.ofNat inside.1 inside.2)
      refine congrArg Address.ofNat ?_
      unfold swapBlocks
      split_ifs <;> omega

end Swap

namespace Routine

variable {routine : Routine}

/-- A rung with another number is found as before when one has been edited. -/
theorem rungAt_withRung {index : Nat} {address : Address} (different : address ≠ .ofNat index)
    (state : OpenRung) :
    (routine.withRung index state).rungAt address = routine.rungAt address := by
  have sameSize : (routine.withRung index state).size = routine.size := List.length_set
  unfold rungAt
  rw [sameSize]
  cases isNumber : address.toNat? with
  | none => rfl
  | some number =>
      have apart : index ≠ number := fun same =>
        different (same ▸ Address.toNat?_eq_some_iff.mp isNumber)
      rw [Option.bind_some, Option.bind_some, withRung, setRung, List.getElem?_set_ne apart]

/-- A routine in which two rungs are edited, with the rungs in the order of the other one. -/
theorem IsSound.rungs_withRung_withRung (sound : routine.IsSound) {index number : Nat}
    (different : index ≠ number) {names : BranchId → BranchId}
    (injective : Function.Injective names) (fixed : ∀ id ∈ routine.handles, names id = id)
    {first second firstToo secondToo : OpenRung}
    (firstRenamed : firstToo.rung = first.rung.rename names)
    (secondRenamed : second.rung = secondToo.rung.rename names) :
    ((routine.withRung number second).withRung index firstToo).rungs =
      ((routine.withRung index first).withRung number secondToo).rungs.map
        (Rung.rename names) := by
  have each : ∀ rung ∈ routine.rungs, rung.rename names = id rung := fun rung member =>
    (sound.rungs rung member).rename_eq injective fun name standing =>
      fixed name (mem_handles.mpr ⟨rung, member, standing⟩)
  have others : routine.rungs.map (Rung.rename names) = routine.rungs :=
    (List.map_congr_left each).trans (List.map_id _)
  dsimp only [Routine.withRung, Routine.setRung]
  rw [List.map_set, List.map_set, others, ← firstRenamed, ← secondRenamed]
  exact List.set_comm _ _ different.symm

end Routine

namespace Drawing

variable {α β γ : Type} [Scalar α]

section Alike

variable {drawing other : Drawing α} {names : BranchId → BranchId}

/-- The branches of two drawings that are alike are the same but for their handles. -/
theorem AreAlike.mem_arena (alike : AreAlike names drawing other) {record : Branch α} :
    record ∈ other.arena.records ↔
      ∃ old ∈ drawing.arena.records, old.rename names = record := by
  rw [alike.otherLaid.mem_arena, alike.layouts_eq]
  constructor
  · rintro ⟨layout, isLayout, member⟩
    obtain ⟨own, isOwn, rfl⟩ := List.mem_map.mp isLayout
    obtain ⟨old, isOld, rfl⟩ := List.mem_map.mp member
    exact ⟨old, alike.laid.mem_arena.mpr ⟨own, isOwn, isOld⟩, rfl⟩
  · rintro ⟨old, member, rfl⟩
    obtain ⟨layout, isLayout, isOld⟩ := alike.laid.mem_arena.mp member
    exact ⟨_, List.mem_map_of_mem isLayout, List.mem_map_of_mem isOld⟩

/-- A drawing is like itself under names that keep all of its handles. -/
theorem LaidOut.areAlike_self (laid : LaidOut drawing) : AreAlike id drawing drawing := by
  refine ⟨laid, laid, rfl, ?_⟩
  have each : ∀ rung ∈ drawing.routine.rungs, rung.rename id = id rung := fun rung member =>
    (laid.sound.rungs rung member).rename_eq Function.injective_id fun _ _ => rfl
  exact ((List.map_congr_left each).trans (List.map_id _)).symm

end Alike

variable [ExactScalar α] {own : Instruction → Prop}

/-- An edit of one rung leaves a drawing laid out in which all other rungs are found as before. -/
theorem LaidOut.editRung_others {drawing : Drawing α} (laid : LaidOut drawing)
    {edit : Action OpenRung β} (atomic : Rung.IsAtomic own edit) (address : Address) :
    LaidOut ((editRung address edit).on drawing).2 ∧
      ((editRung address edit).on drawing).2.config = drawing.config ∧
      ∀ other ≠ address, ((editRung address edit).on drawing).2.routine.rungAt other =
        drawing.routine.rungAt other := by
  rcases laid.editRung_cases atomic address with
    ⟨error, _, _, fails⟩ | ⟨index, rung, rfl, _, ⟨error, _, _, fails⟩ |
      ⟨answer, state, final, _, _, succeeds, laidFinal, sameConfig, sameRoutine⟩⟩
  · rw [fails]
    exact ⟨laid, rfl, fun _ _ => rfl⟩
  · rw [fails]
    exact ⟨laid, rfl, fun _ _ => rfl⟩
  · rw [succeeds]
    refine ⟨laidFinal, sameConfig, fun other different => ?_⟩
    rw [sameRoutine]
    exact Routine.rungAt_withRung different state

/-- An edit is made alike on two drawings that have the same rung at its address. -/
theorem LaidOut.editRung_alike {drawing other : Drawing α} (laid : LaidOut drawing)
    (otherLaid : LaidOut other) {edit : Action OpenRung β} (atomic : Rung.IsAtomic own edit)
    (uniform : Rung.IsUniform edit) {address : Address}
    (sameRung : other.routine.rungAt address = drawing.routine.rungAt address) :
    (∀ error, ((editRung address edit).on drawing).1 = .error error ↔
      ((editRung address edit).on other).1 = .error error) ∧
    (((editRung address edit).on drawing).2 = drawing ∧
        ((editRung address edit).on other).2 = other ∨
      ∃ index rung changed changedToo count, address = .ofNat index ∧
        drawing.routine.rungs[index]? = some rung ∧
        ((editRung address edit).on drawing).2.routine =
          drawing.routine.withRung index ⟨changed, drawing.routine.nextId + count⟩ ∧
        ((editRung address edit).on other).2.routine =
          other.routine.withRung index ⟨changedToo, other.routine.nextId + count⟩ ∧
        ∀ names : BranchId → BranchId, Function.Injective names →
          (∀ id ∈ rung.handles, names id = id) →
          (∀ place < count, names (.ofNat (drawing.routine.nextId + place)) =
            .ofNat (other.routine.nextId + place)) →
          changedToo = changed.rename names) := by
  have of_fails {error : LadderError}
      (fails : (editRung address edit).on drawing = (.error error, drawing))
      (failsToo : (editRung address edit).on other = (.error error, other)) :
      (∀ error, ((editRung address edit).on drawing).1 = .error error ↔
        ((editRung address edit).on other).1 = .error error) ∧
      ((editRung address edit).on drawing).2 = drawing ∧
        ((editRung address edit).on other).2 = other := by
    rw [fails, failsToo]
    exact ⟨fun _ => Iff.rfl, rfl, rfl⟩
  rcases drawing.routine.rungAt_cases address with
    ⟨error, _, fails⟩ | ⟨index, rung, rfl, stands, found⟩
  · exact (of_fails (on_editRung_of_rungAt fails edit)
      (on_editRung_of_rungAt (sameRung.trans fails) edit)).imp_right Or.inl
  have standsToo : other.routine.rungs[index]? = some rung :=
    (Routine.rungAt_eq_ok_iff.mp (sameRung.trans found)).2
  have sound := laid.sound.openRung stands
  have soundToo := otherLaid.sound.openRung standsToo
  rcases uniform rung drawing.routine.nextId other.routine.nextId sound soundToo with
    ⟨error, fails, failsToo⟩ |
      ⟨answer, answerToo, changed, changedToo, count, succeeds, succeedsToo, renamed⟩
  · exact (of_fails (on_editRung_of_error stands fails)
      (on_editRung_of_error standsToo failsToo)).imp_right Or.inl
  · obtain ⟨final, edits, _, _, finalRoutine⟩ :=
      laid.exists_editRung stands (atomic.edited sound succeeds) succeeds
    obtain ⟨finalToo, editsToo, _, _, finalRoutineToo⟩ :=
      otherLaid.exists_editRung standsToo (atomic.edited soundToo succeedsToo) succeedsToo
    rw [edits, editsToo]
    exact ⟨fun _ => by simp, Or.inr ⟨index, rung, changed, changedToo, count, rfl, stands,
      finalRoutine, finalRoutineToo, renamed⟩⟩

/-! ### Both orders -/

/-- All that one drawing shows is what another one shows, but for the names of the handles. -/
structure IsRenamed (names : BranchId → BranchId) (drawing other : Drawing α) : Prop where
  config_eq : other.config = drawing.config
  snapshot_eq : other.routine.snapshot = drawing.routine.snapshot
  nextId_eq : other.routine.nextId = drawing.routine.nextId
  rungs_eq : other.routine.rungs = drawing.routine.rungs.map (Rung.rename names)
  layouts_eq : other.layouts = drawing.layouts.map (LayoutResult.rename names)
  bands_eq : other.bands = drawing.bands
  mem_arena : ∀ record, record ∈ other.arena.records ↔
    ∃ old ∈ drawing.arena.records, old.rename names = record
  extent_eq : other.extent = drawing.extent

omit [ExactScalar α] in
theorem AreAlike.isRenamed {drawing other : Drawing α} {names : BranchId → BranchId}
    (alike : AreAlike names drawing other)
    (sameName : other.routine.name = drawing.routine.name)
    (sameId : other.routine.nextId = drawing.routine.nextId) : IsRenamed names drawing other := by
  have isOther : other.routine = { drawing.routine with
      rungs := drawing.routine.rungs.map (Rung.rename names)
      nextId := other.routine.nextId } := by
    dsimp only
    rw [← sameName, ← alike.rungs_eq]
  have sameSnapshot : other.routine.snapshot = drawing.routine.snapshot := by
    rw [isOther]
    exact Routine.snapshot_rename _ _
  exact ⟨alike.config_eq, sameSnapshot, sameId, alike.rungs_eq, alike.layouts_eq, alike.bands_eq,
    fun _ => alike.mem_arena, alike.extent_eq⟩

/--
What two edits leave in one order is what they leave in the other one, but for the handles that
the two have taken, and each of them succeeds or fails as in the other order.
-/
structure Commutes (drawing : Drawing α) (first : Action (Drawing α) β)
    (second : Action (Drawing α) γ) : Prop where
  first_error : ∀ error, (first.on drawing).1 = .error error ↔
    (first.on (second.on drawing).2).1 = .error error
  second_error : ∀ error, (second.on drawing).1 = .error error ↔
    (second.on (first.on drawing).2).1 = .error error
  isRenamed : ∃ names : BranchId → BranchId, Function.Injective names ∧
    (∀ id, ¬ id.LiesIn drawing.routine.nextId
      (second.on (first.on drawing).2).2.routine.nextId → names id = id) ∧
    IsRenamed names (second.on (first.on drawing).2).2 (first.on (second.on drawing).2).2

/-- Edits of two rungs may be made in either order. -/
theorem LaidOut.editRung_commutes {drawing : Drawing α} (laid : LaidOut drawing)
    {edit : Action OpenRung β} {editToo : Action OpenRung γ} (atomic : Rung.IsAtomic own edit)
    (atomicToo : Rung.IsAtomic own editToo) (uniform : Rung.IsUniform edit)
    (uniformToo : Rung.IsUniform editToo) {address another : Address}
    (different : address ≠ another) :
    Commutes drawing (editRung address edit) (editRung another editToo) := by
  obtain ⟨laidOne, configOne, othersOne⟩ := laid.editRung_others atomic address
  obtain ⟨laidOther, configOther, othersOther⟩ := laid.editRung_others atomicToo another
  obtain ⟨laidFinal, finalConfig, _⟩ := laidOne.editRung_others atomicToo another
  obtain ⟨laidFinalToo, finalConfigToo, _⟩ := laidOther.editRung_others atomic address
  obtain ⟨errors, alike⟩ :=
    laid.editRung_alike laidOther atomic uniform (othersOther address different)
  obtain ⟨errorsToo, alikeToo⟩ :=
    laidOne.editRung_alike laid atomicToo uniformToo (othersOne another different.symm).symm
  refine ⟨errors, fun error => (errorsToo error).symm, ?_⟩
  rcases alike with ⟨kept, keptToo⟩ |
    ⟨index, rung, changed, changedToo, count, rfl, stands, one, final, renamed⟩
  · -- The first edit fails in both orders.
    rw [kept, keptToo]
    exact ⟨id, Function.injective_id, fun _ _ => rfl, laidOther.areAlike_self.isRenamed rfl rfl⟩
  rcases alikeToo with ⟨keptToo, kept⟩ |
    ⟨number, rungToo, moved, movedToo, taken, rfl, standsToo, finalToo, other, renamedToo⟩
  · -- The second edit fails in both orders.
    rw [kept, keptToo]
    exact ⟨id, Function.injective_id, fun _ _ => rfl, laidOne.areAlike_self.isRenamed rfl rfl⟩
  have apart : index ≠ number := fun same => different (congrArg Address.ofNat same)
  rw [one] at standsToo finalToo renamedToo
  rw [other] at final renamed
  have stays : rungToo ∈ drawing.routine.rungs :=
    List.mem_of_getElem? ((List.getElem?_set_ne apart).symm.trans standsToo)
  -- The handles that the edits take change places, and all others keep theirs.
  have injective : Function.Injective (swapHandles drawing.routine.nextId count taken) :=
    BranchId.renumbered_injective swapBlocks_injective
  have keeps : ∀ id ∈ drawing.routine.handles,
      swapHandles drawing.routine.nextId count taken id = id := fun id member =>
    swapHandles_of_not_liesIn fun inside => (laid.sound.given id member).ne inside rfl
  have first := renamed _ injective
    (fun id member => keeps id (Routine.mem_handles_of_getElem? stands member))
    fun _ => swapHandles_first
  have second := renamedToo _ injective
    (fun id member => keeps id (Routine.mem_handles.mpr ⟨rungToo, stays, member⟩))
    fun _ => swapHandles_second
  refine ⟨_, injective, ?_, AreAlike.isRenamed ⟨laidFinal, laidFinalToo, ?_, ?_⟩ ?_ ?_⟩
  · rw [finalToo]
    exact fun _ => swapHandles_of_not_liesIn
  · rw [finalConfigToo, configOther, finalConfig, configOne]
  · rw [final, finalToo]
    exact laid.sound.rungs_withRung_withRung apart injective keeps first second
  · rw [final, finalToo]
    rfl
  · rw [final, finalToo]
    exact Nat.add_right_comm _ _ _

omit [ExactScalar α] in
/-- An edit of one rung looks at no handle that is free, and it changes all or nothing. -/
theorem exists_act_eq_editRung {edit : Edit} {address : Address}
    (onRung : edit.rung? = some address) :
    ∃ change : Action OpenRung edit.Answer,
      act edit = (editRung address change : Action (Drawing α) edit.Answer) ∧
        Rung.IsAtomic (fun _ => True) change ∧ Rung.IsUniform change := by
  have ofLooks {β : Type} {change : Action OpenRung β} (looks : Rung.LooksAtRung change)
      (atomic : Rung.IsAtomic (fun _ => True) change) :
      Rung.IsAtomic (fun _ => True) change ∧ Rung.IsUniform change :=
    ⟨atomic, looks.isUniform atomic⟩
  cases edit with
  | insertInstruction rung position rail content =>
      cases onRung
      exact ⟨_, rfl, ofLooks (Rung.insertInstruction_looksAtRung position rail content)
        (Rung.insertInstruction_isAtomic position rail trivial)⟩
  | replaceInstruction rung position content =>
      cases onRung
      exact ⟨_, rfl, ofLooks (Rung.replaceInstruction_looksAtRung position content)
        (Rung.replaceInstruction_isAtomic position trivial)⟩
  | deleteElement rung position =>
      cases onRung
      exact ⟨_, rfl, ofLooks (Rung.deleteElement_looksAtRung position)
        (Rung.deleteElement_isAtomic position)⟩
  | insertBranch rung first last rail =>
      cases onRung
      exact ⟨_, rfl, Rung.insertBranch_isAtomic first last rail,
        Rung.insertBranch_isUniform first last rail⟩
  | insertBranchLevel rung position =>
      cases onRung
      exact ⟨_, rfl, Rung.insertBranchLevel_isAtomic position,
        Rung.insertBranchLevel_isUniform position⟩
  | moveBranch rung id target rail =>
      cases onRung
      exact ⟨_, rfl, ofLooks (Rung.moveBranch_looksAtRung id target rail)
        (Rung.moveBranch_isAtomic id target rail)⟩
  | removeBranch rung id =>
      cases onRung
      exact ⟨_, rfl, ofLooks (Rung.removeBranch_looksAtRung id) (Rung.removeBranch_isAtomic id)⟩
  | moveElement source target => cases onRung
  | setComment rung comment =>
      cases onRung
      exact ⟨_, rfl, ofLooks (Rung.setComment_looksAtRung comment)
        (Rung.setComment_isAtomic comment)⟩
  | addRung source place => cases onRung
  | removeRung rung => cases onRung

/--
After any run of edits, two edits of different rungs may be made in either order: each succeeds
or fails as in the other order, and the routine and all that is drawn of it are the same, but
for the names of the handles that the two edits have taken.
-/
theorem edits_commute (config : LayoutConfig α) {routine : Routine}
    (reachable : routine.Reachable) (edits : List Edit) {drawing : Drawing α}
    (isRun : drawing = (ofRoutine config routine).2.run edits) {edit other : Edit}
    {rung another : Address} (onRung : edit.rung? = some rung)
    (onAnother : other.rung? = some another) (different : rung ≠ another) :
    Commutes drawing (act edit) (act other) := by
  obtain ⟨start, makes, laidStart, _⟩ := exists_ofRoutine config reachable.isSound
  rw [makes] at isRun
  obtain ⟨laid, _⟩ : LaidOut drawing ∧ drawing.config = start.config :=
    isRun ▸ laidStart.run edits
  obtain ⟨change, acts, atomic, uniform⟩ := exists_act_eq_editRung (α := α) onRung
  obtain ⟨changeToo, actsToo, atomicToo, uniformToo⟩ :=
    exists_act_eq_editRung (α := α) onAnother
  rw [acts, actsToo]
  exact laid.editRung_commutes atomic atomicToo uniform uniformToo different

/-- A rail that is opened in one rung. -/
def sampleRail : Edit := .insertBranchLevel (.ofNat 0) (.ofNat 0)

/-- A branch that is put into another one. -/
def sampleBranch : Edit := .insertBranch (.ofNat 1) (.ofNat 0) (.ofNat 1) none

/-- The order in which a rail and a branch are put in decides which handles they take. -/
theorem edits_commute_of_sample :
    ∃ routine, Routine.ofSource Routine.sampleSource = .ok routine ∧
      ∃ drawing : Drawing Rat, drawing = (ofRoutine .standard routine).2 ∧
        ((drawing.apply sampleRail).2.apply sampleBranch).2.routine.handles =
          [0, 2, 1, 3, 4].map Address.ofNat ∧
        ((drawing.apply sampleBranch).2.apply sampleRail).2.routine.handles =
          [0, 4, 1, 2, 3].map Address.ofNat ∧
        Commutes drawing (act sampleRail) (act sampleBranch) := by
  have computed : (Routine.ofSource Routine.sampleSource).toOption.map (fun routine =>
      let drawing : Drawing Rat := (ofRoutine .standard routine).2
      [((drawing.apply sampleRail).2.apply sampleBranch).2.routine.handles,
        ((drawing.apply sampleBranch).2.apply sampleRail).2.routine.handles]) =
      some [[0, 2, 1, 3, 4].map Address.ofNat, [0, 4, 1, 2, 3].map Address.ofNat] := by
    decide +kernel
  obtain ⟨routine, loads, handles⟩ := exists_ok_of_map computed
  refine ⟨routine, loads, _, rfl, (List.cons.inj handles).1,
    (List.cons.inj (List.cons.inj handles).2).1, ?_⟩
  exact edits_commute .standard (.loaded loads) [] rfl rfl rfl (by decide)

end Drawing
end LadderDiagram
