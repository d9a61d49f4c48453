import LadderDiagram.Proofs.Routine.Reload
import LadderDiagram.Proofs.RungText.Numbering

/-!
# Routines that are saved and read again

A routine that is read from what it was saved as has the rungs that it had, but for the handles:
those are counted off over all of its rungs, whatever they were before.
-/

namespace LadderDiagram

/-- A rung with other handles. -/
def Rung.rename (names : BranchId → BranchId) (rung : Rung) : Rung :=
  { rung with elements := rung.elements.map (Element.rename names) }

variable {names : BranchId → BranchId}

namespace Rung

theorem ofElements_rename (elements : List Element) (comment : Option String) :
    ofElements (elements.map (Element.rename names)) comment =
      (ofElements elements comment).rename names := by
  unfold ofElements rename
  rw [branchDepth_rename]

theorem text_rename (rung : Rung) : (rung.rename names).text = rung.text :=
  sequenceText_rename rung.elements

/-- A comment that says something is kept as it is. -/
theorem IsCommented.normalize_eq {rung : Rung} (commented : rung.IsCommented) :
    Comment.normalize rung.comment = rung.comment := by
  unfold Comment.normalize
  cases isComment : rung.comment with
  | none => rfl
  | some comment =>
      rw [Option.filter_some, commented comment isComment]
      rfl

/-- A rung that is read as what it was from what it is saved as. -/
structure IsRestorable (rung : Rung) : Prop where
  sound : rung.IsSound
  readable : ∀ content, .instruction content ∈ drafts rung.elements → content.IsReadable
  commented : rung.IsCommented

/-- A rung as it is written for saving. -/
def source (rung : Rung) : RungSource := ⟨some rung.text, rung.comment⟩

/-- A rung is read from what it is saved as, with the next handles in their order. -/
theorem IsRestorable.on_ofSource {rung : Rung} (restorable : rung.IsRestorable)
    (injective : Function.Injective names) {next : Nat}
    (numbered : AreNumbered names next rung.handles) :
    (ofSource rung.source).on next = (.ok (rung.rename names), next + rung.handles.length) := by
  obtain ⟨nodes, tree, canonical, isText⟩ :=
    restorable.sound.exists_text_eq restorable.readable
  have reads : (readDrafts (some rung.text)).on next =
      (.ok ((drafts rung.elements).map (Draft.rename names)), next + rung.handles.length) := by
    rw [isText, on_readDrafts_text canonical, tree.railDrafts_eq numbered]
    rfl
  have annotates := annotate_rename injective restorable.sound.annotated
  have same : ofElements (rung.elements.map (Element.rename names)) rung.comment =
      rung.rename names := by
    rw [ofElements_rename]
    exact congrArg (Rung.rename names) restorable.sound.restored_eq
  unfold ofSource source
  rw [Action.on_bind_of_ok reads, Action.on_bind, Action.on_settled, annotates]
  dsimp only
  rw [restorable.commented.normalize_eq, same]
  rfl

end Rung

namespace Routine

/-- Rungs are read behind those of a routine as what they were. -/
theorem on_appendRungs (injective : Function.Injective names) {rungs : List Rung}
    (restorable : ∀ rung ∈ rungs, rung.IsRestorable) (routine : Routine)
    (numbered : AreNumbered names routine.nextId (rungs.flatMap Rung.handles)) :
    (appendRungs (rungs.map Rung.source)).on routine =
      (.ok (), { routine with
        rungs := routine.rungs ++ rungs.map (Rung.rename names)
        nextId := routine.nextId + (rungs.flatMap Rung.handles).length }) := by
  induction rungs generalizing routine with
  | nil =>
      rw [List.map_nil, List.map_nil, List.flatMap_nil, List.append_nil]
      rfl
  | cons rung rest ih =>
      obtain ⟨own, others⟩ := List.forall_mem_cons.mp restorable
      rw [List.flatMap_cons] at numbered ⊢
      obtain ⟨here, behind⟩ := areNumbered_append.mp numbered
      have reads := own.on_ofSource injective here
      have next := ih others { routine with
        rungs := routine.rungs ++ [rung.rename names]
        nextId := routine.nextId + rung.handles.length } behind
      rw [List.map_cons, appendRungs, Action.on_bind, Action.on_get]
      dsimp only
      rw [Action.on_bind_of_ok (on_insertRung_size reads), next, List.map_cons, List.length_append,
        List.append_assoc, List.singleton_append, Nat.add_assoc]

theorem snapshot_source_rungs (routine : Routine) :
    routine.snapshot.source.rungs = routine.rungs.map Rung.source := by
  apply List.ext_getElem?
  intro index
  simp only [snapshot, RoutineSnapshot.source, List.getElem?_map, List.getElem?_mapIdx,
    Option.map_map]
  rfl

theorem snapshot_rename (routine : Routine) (nextId : Nat) :
    snapshot { routine with rungs := routine.rungs.map (Rung.rename names), nextId := nextId } =
      routine.snapshot := by
  refine congrArg (RoutineSnapshot.mk routine.name) (List.ext_getElem? fun index => ?_)
  simp only [List.getElem?_mapIdx, List.getElem?_map, Option.map_map, Function.comp_def,
    Rung.text_rename]
  rfl

/-- A routine is read from what it is saved as, with the places of its handles for names. -/
theorem exists_ofSource_snapshot {routine : Routine} (sound : routine.IsSound)
    (readable : routine.Holds Instruction.IsReadable) (commented : routine.IsCommented) :
    ∃ after : Routine, after.IsSound ∧ ofSource routine.snapshot.source = .ok after ∧
      after.rungs = routine.rungs.map (Rung.rename (placeAmong routine.handles)) ∧
      after.snapshot = routine.snapshot := by
  have restorable : ∀ rung ∈ routine.rungs, rung.IsRestorable := fun rung member =>
    ⟨sound.rungs rung member, readable rung member, commented rung member⟩
  have appends := on_appendRungs (placeAmong_injective routine.handles) restorable
    ⟨routine.name, [], 0⟩ (areNumbered_placeAmong sound.distinct)
  have reads : ofSource routine.snapshot.source = .ok
      { routine with
        rungs := routine.rungs.map (Rung.rename (placeAmong routine.handles))
        nextId := routine.handles.length } := by
    dsimp only at appends
    rw [List.nil_append, Nat.zero_add] at appends
    unfold ofSource
    rw [snapshot_source_rungs]
    dsimp only [empty, snapshot, RoutineSnapshot.source, Option.getD_some]
    rw [appends]
    rfl
  rcases ofSource_cases routine.snapshot.source with ⟨error, _, fails⟩ | ⟨after, isSound, _, _, ok⟩
  · rw [reads] at fails
    cases fails
  · rw [reads] at ok
    obtain rfl := Except.ok.inj ok
    exact ⟨_, isSound, reads, rfl, snapshot_rename routine _⟩

end Routine

end LadderDiagram
