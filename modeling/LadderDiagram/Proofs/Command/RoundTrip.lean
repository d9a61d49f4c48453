import LadderDiagram.Command.Basic
import LadderDiagram.Proofs.Drawing.Renaming
import LadderDiagram.Proofs.Editor.Call
import LadderDiagram.Proofs.Editor.Failure
import LadderDiagram.Proofs.Rung.Source

/-!
# Commands and the text of rungs

A command reads the instructions that it puts onto rungs from text, and it changes the
drawing by one call of the editor at most.  So every rung that a run of commands leads to
is a sequence whose text is read as its tree.
-/

namespace LadderDiagram
namespace Command

variable {α : Type} [Scalar α]

/-- The drawings that a new editor comes to by commands, whether they succeed or fail. -/
inductive Reachable (config : LayoutConfig α) : Drawing α → Prop
  | new : Reachable config (.blank config .empty)
  | executed {drawing : Drawing α} (command : Command α) :
      Reachable config drawing → Reachable config (execute drawing command).drawing

theorem executePlacement_cases (drawing : Drawing α) {content : Instruction}
    (readable : content.IsReadable) (placement : Placement α) :
    (executePlacement drawing content placement).drawing = drawing ∨
      ∃ call : Editor.Call α, call.Brings Instruction.IsReadable ∧
        (executePlacement drawing content placement).drawing = (call.on drawing).2 := by
  unfold executePlacement
  split
  next x y _ _ => exact Or.inr ⟨.insertAtPoint x y content, readable, rfl⟩
  next rung position _ _ _ =>
    exact Or.inr
      ⟨.edit (.insertInstruction rung position placement.rail content), readable, rfl⟩
  next => exact Or.inl rfl

/-- A command changes nothing, or it makes one call of the editor. -/
theorem execute_cases (drawing : Drawing α) (command : Command α) :
    (execute drawing command).drawing = drawing ∨
      ∃ call : Editor.Call α, call.Brings Instruction.IsReadable ∧
        (execute drawing command).drawing = (call.on drawing).2 := by
  cases command with
  | load source => exact Or.inr ⟨.load source, trivial, rfl⟩
  | loadDocument document name =>
      simp only [execute]
      cases L5x.readRoutine document name with
      | error error => exact Or.inl rfl
      | ok source => exact Or.inr ⟨.load source, trivial, rfl⟩
  | exportDocument program => exact Or.inl rfl
  | routine => exact Or.inl rfl
  | layout rung => cases rung <;> exact Or.inl rfl
  | extent => exact Or.inl rfl
  | insertInstruction text placement =>
      simp only [execute]
      cases reads : readInstruction text with
      | error error => exact Or.inl rfl
      | ok content => exact executePlacement_cases drawing ⟨text, reads⟩ placement
  | replaceInstruction text rung position =>
      simp only [execute]
      cases reads : readInstruction text with
      | error error => exact Or.inl rfl
      | ok content =>
          exact Or.inr ⟨.edit (.replaceInstruction rung position content), ⟨text, reads⟩, rfl⟩
  | insertBranch rung first last rail =>
      exact Or.inr ⟨.edit (.insertBranch rung first last rail), trivial, rfl⟩
  | insertBranchLevel rung position =>
      exact Or.inr ⟨.edit (.insertBranchLevel rung position), trivial, rfl⟩
  | moveBranch rung id position rail =>
      exact Or.inr ⟨.edit (.moveBranch rung id position rail), trivial, rfl⟩
  | removeBranch rung id => exact Or.inr ⟨.edit (.removeBranch rung id), trivial, rfl⟩
  | removeElement rung position => exact Or.inr ⟨.edit (.deleteElement rung position), trivial, rfl⟩
  | setComment rung comment => exact Or.inr ⟨.edit (.setComment rung comment), trivial, rfl⟩
  | addRung source place => exact Or.inr ⟨.edit (.addRung source place), trivial, rfl⟩
  | removeRung rung => exact Or.inr ⟨.edit (.removeRung rung), trivial, rfl⟩
  | locate x y => exact Or.inl rfl
  | findInsertion x rung level rail => exact Or.inl rfl

/-- A source that is read as a routine which can be drawn is loaded in place of any drawing. -/
theorem executeLoad_eq {source : RoutineSource} {routine : Routine} {other after : Drawing α}
    (reads : Routine.ofSource source = .ok routine)
    (makes : Drawing.ofRoutine other.config routine = (.ok (), after)) :
    executeLoad other source = ⟨.ok (.loaded routine.snapshot), after,
      [.log (Editor.loadEvent routine), Editor.layoutEvent after]⟩ := by
  rw [executeLoad, Editor.load, reads]
  dsimp only
  rw [makes]
  rfl

/-- Every routine that a run of commands leads to is sound, with readable instructions. -/
theorem Reachable.carries {config : LayoutConfig α} {drawing : Drawing α}
    (reachable : Reachable config drawing) :
    drawing.routine.Carries Instruction.IsReadable := by
  induction reachable with
  | new =>
      refine ⟨Routine.isSound_named Routine.defaultName, ?_, ?_⟩
      · exact fun rung member => absurd member List.not_mem_nil
      · exact fun rung member => absurd member List.not_mem_nil
  | @executed drawing command _ carries =>
      rcases execute_cases drawing command with same | ⟨call, brings, isCall⟩
      · rw [same]
        exact carries
      · rw [isCall]
        have reads : ∀ content : Instruction, content.IsRead → content.IsReadable :=
          fun content isRead => Instruction.isReadable_iff.mpr isRead.isCanonical
        exact call.on_carries reads carries brings

end Command

namespace RungText

/--
A sequence of readable instructions, such as every rung is that commands lead to, is
written as a text that is read as its tree.  A text that is read once is written and read
again without a change.
-/
theorem parse_sequenceText :
    (∀ (source : List Draft) (elements : List Element), annotate source = .ok elements →
      (∀ content, .instruction content ∈ source → content.IsReadable) →
      ∃ nodes, IsTreeOf source nodes ∧ (∀ other, IsTreeOf source other → other = nodes) ∧
        parse (sequenceText elements) = .ok nodes) ∧
    (∀ (α : Type) [Scalar α] (config : LayoutConfig α) (drawing : Drawing α),
      Command.Reachable config drawing → ∀ rung ∈ drawing.routine.rungs,
        annotate (drafts rung.elements) = .ok rung.elements ∧
        ∀ content, .instruction content ∈ drafts rung.elements → content.IsReadable) ∧
    (∀ (source : String) (nodes : List Node), parse source = .ok nodes →
      ∀ next again : Nat, ∃ elements elementsAgain,
        annotate (railDrafts next nodes).1 = .ok elements ∧
        parse (sequenceText elements) = .ok nodes ∧
        annotate (railDrafts again nodes).1 = .ok elementsAgain ∧
        sequenceText elementsAgain = sequenceText elements) := by
  refine ⟨fun source elements => exists_parse_sequenceText, ?_, ?_⟩
  · intro α _ config drawing reachable rung member
    have carries := reachable.carries
    exact ⟨(carries.sound.rungs rung member).annotated, carries.holds rung member⟩
  · intro source nodes parses next again
    obtain ⟨elements, annotates, writes⟩ := exists_sequenceText_eq parses next
    obtain ⟨elementsAgain, annotatesAgain, writesAgain⟩ := exists_sequenceText_eq parses again
    refine ⟨elements, elementsAgain, annotates, ?_, annotatesAgain, writesAgain.trans writes.symm⟩
    rw [writes]
    exact parse_text (areCanonical_of_parse parses)

/-- An editor that has been told to read a rung with empty rails and nested operands. -/
def sampleDrawing : Drawing Rat :=
  (Command.execute (.blank .standard .empty)
    (.load ⟨none, [⟨some "[xic( a ),[,nop( )],]cmp(f(x, (y)),, z);", none⟩]⟩)).drawing

theorem parse_sequenceText_of_sample :
    ∃ rung ∈ sampleDrawing.routine.rungs, ∃ nodes elements,
      rung.text = "[XIC(a),[,NOP()],]CMP(f(x, (y)),,z);" ∧ parse rung.text = .ok nodes ∧
        annotate (railDrafts 0 nodes).1 = .ok elements ∧
        parse (sequenceText elements) = .ok nodes := by
  have texts : sampleDrawing.routine.rungs.map Rung.text =
      ["[XIC(a),[,NOP()],]CMP(f(x, (y)),,z);"] := by
    decide +kernel
  obtain ⟨rung, member, written⟩ := List.mem_map.mp (texts ▸ List.mem_cons_self)
  obtain ⟨annotated, readable⟩ :=
    parse_sequenceText.2.1 Rat .standard sampleDrawing (.executed _ .new) rung member
  obtain ⟨nodes, _, _, parses⟩ := parse_sequenceText.1 _ rung.elements annotated readable
  obtain ⟨elements, _, annotates, parsesAgain, _⟩ :=
    parse_sequenceText.2.2 rung.text nodes parses 0 0
  exact ⟨rung, member, nodes, elements, written, parses, annotates, parsesAgain⟩

end RungText

/-!
### Drawings that are saved and loaded again

A routine that is loaded from what it has been saved as is drawn as it was.  The handles of its
branches are counted off anew, and nothing else on the drawing depends on them.
-/

namespace Command

variable {α : Type} [Scalar α] [ExactScalar α] {config : LayoutConfig α} {drawing : Drawing α}

theorem Reachable.laidOut (reachable : Reachable config drawing) : drawing.LaidOut := by
  induction reachable with
  | new => exact Editor.laidOut_blank config
  | @executed drawing command _ laid =>
      rcases execute_cases drawing command with same | ⟨call, _, isCall⟩
      · rw [same]
        exact laid
      · rw [isCall]
        exact (Editor.steps_on laid call).laidOut

/-- A sound routine that a source is read as is drawn in place of any drawing. -/
theorem exists_loaded {source : RoutineSource} {routine : Routine}
    (reads : Routine.ofSource source = .ok routine) (sound : routine.IsSound)
    (other : Drawing α) :
    ∃ after events, execute other (.load source) = ⟨.ok (.loaded routine.snapshot), after, events⟩ ∧
      after.LaidOut ∧ after.config = other.config ∧ after.routine = routine := by
  obtain ⟨after, makes, laid, sameConfig, sameRoutine, _⟩ :=
    Drawing.exists_ofRoutine other.config sound
  exact ⟨after, _, executeLoad_eq reads makes, laid, sameConfig, sameRoutine⟩

/--
A routine is saved and loaded again with the same name, texts and comments, and its drawing after
that is the one before with other handles: every layout, every band, the extent and all wires.
-/
theorem exists_redrawn (reachable : Reachable config drawing) :
    ∃ (after : Drawing α) (events : List (Event α)) (names : BranchId → BranchId),
      execute drawing (.load drawing.routine.snapshot.source) =
        ⟨.ok (.loaded drawing.routine.snapshot), after, events⟩ ∧
      after.routine.snapshot = drawing.routine.snapshot ∧
      after.config = drawing.config ∧
      Function.Injective names ∧
      after.routine.rungs = drawing.routine.rungs.map (Rung.rename names) ∧
      after.layouts = drawing.layouts.map (LayoutResult.rename names) ∧
      after.bands = drawing.bands ∧
      after.extent = drawing.extent ∧
      after.layouts.map (·.wires after.config) = drawing.layouts.map (·.wires drawing.config) := by
  have carries := reachable.carries
  have injective := placeAmong_injective drawing.routine.handles
  obtain ⟨routine, sound, reads, rungs_eq, snapshot_eq⟩ :=
    Routine.exists_ofSource_snapshot carries.sound carries.holds carries.commented
  obtain ⟨after, events, loads, laid, sameConfig, rfl⟩ := exists_loaded reads sound drawing
  have alike : Drawing.AreAlike (placeAmong drawing.routine.handles) drawing after :=
    ⟨reachable.laidOut, laid, sameConfig, rungs_eq⟩
  refine ⟨after, events, placeAmong drawing.routine.handles, ?_, snapshot_eq, sameConfig, injective,
    rungs_eq, alike.layouts_eq, alike.bands_eq, alike.extent_eq, ?_⟩
  · rw [loads, snapshot_eq]
  · rw [sameConfig]
    exact alike.wires_eq injective drawing.config

/-- A drawing with handles that are out of order, and with some that have been given up. -/
def reorderedDrawing : Drawing Rat :=
  [.load ⟨some "Line", [⟨some "XIC(A)[XIC(B),XIC(C)]OTE(D);", some "first"⟩]⟩,
    .insertBranch (.ofNat 0) (.ofNat 0) (.ofNat 1) none,
    .insertBranchLevel (.ofNat 0) (.ofNat 0),
    .removeBranch (.ofNat 0) (.ofNat 0),
    .addRung ⟨some "[XIC(E),]OTE(F);", none⟩ (some (.ofNat 0))].foldl
      (fun drawing command => (execute drawing command).drawing) (.blank .standard .empty)

theorem exists_redrawn_of_reordered :
    reorderedDrawing.routine.handles =
      [.ofNat 5, .ofNat 6, .ofNat 2, .ofNat 4, .ofNat 3] ∧
    ∃ (after : Drawing Rat) (events : List (Event Rat)) (names : BranchId → BranchId),
      execute reorderedDrawing (.load reorderedDrawing.routine.snapshot.source) =
        ⟨.ok (.loaded ⟨"Line", [⟨0, "[XIC(E),]OTE(F);", none⟩,
          ⟨1, "[XIC(A),,]OTE(D);", some "first"⟩]⟩), after, events⟩ ∧
      after.layouts = reorderedDrawing.layouts.map (LayoutResult.rename names) ∧
      after.extent = reorderedDrawing.extent := by
  have reachable : Reachable .standard reorderedDrawing :=
    .executed _ (.executed _ (.executed _ (.executed _ (.executed _ .new))))
  obtain ⟨after, events, names, loads, _, _, _, _, layouts, _, extent, _⟩ :=
    exists_redrawn reachable
  have saved : reorderedDrawing.routine.snapshot = ⟨"Line", [⟨0, "[XIC(E),]OTE(F);", none⟩,
      ⟨1, "[XIC(A),,]OTE(D);", some "first"⟩]⟩ := by
    decide +kernel
  exact ⟨by decide +kernel, after, events, names, saved ▸ loads, layouts, extent⟩

end Command

end LadderDiagram
