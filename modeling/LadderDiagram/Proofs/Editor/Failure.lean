import LadderDiagram.Proofs.Drawing.Run
import LadderDiagram.Proofs.Editor.Call

/-!
# Failed calls of the editor

A call that fails may have changed a rung and put it back, and it may have laid out rungs
again.  What is drawn depends on the routine only, so it is enough that the routine is
what it was.
-/

namespace LadderDiagram
namespace Editor

variable {α : Type} [Scalar α]

/-- The drawings that a new editor comes to by calls, whether they succeed or fail. -/
inductive Reachable (config : LayoutConfig α) : Drawing α → Prop
  | new : Reachable config (.blank config .empty)
  | called {drawing : Drawing α} (call : Call α) :
      Reachable config drawing → Reachable config (call.on drawing).2

theorem laidOut_blank (config : LayoutConfig α) : Drawing.LaidOut (.blank config .empty) := by
  refine ⟨Routine.isSound_named Routine.defaultName, rfl, Nat.le_refl _, Arena.isSorted_empty,
    ?_, ?_⟩
  · exact fun record member => absurd member List.not_mem_nil
  · exact fun index rung stands => absurd stands (by simp [Drawing.blank, Routine.empty])

variable [ExactScalar α] {drawing : Drawing α}

/-- What a call does to a drawing that is laid out. -/
structure Steps (drawing : Drawing α) (result : Except LadderError Unit × Drawing α) : Prop where
  laidOut : result.2.LaidOut
  config_eq : result.2.config = drawing.config
  routine_eq : ∀ error, result.1 = .error error → result.2.routine = drawing.routine

theorem steps_edit (laid : drawing.LaidOut) (change : Edit) :
    Steps drawing (Call.on drawing (.edit change)) := by
  rw [on_edit]
  unfold Drawing.apply
  rcases Drawing.act_keepsLaidOut change drawing laid with
    ⟨error, after, _, fails, laidAfter, sameConfig, sameRoutine⟩ |
      ⟨answer, after, succeeds, laidAfter, sameConfig⟩
  · rw [fails]
    exact ⟨laidAfter, sameConfig, fun _ _ => sameRoutine⟩
  · rw [succeeds]
    exact ⟨laidAfter, sameConfig, nofun⟩

/-- Every call leaves the drawing laid out, and with its routine if the call fails. -/
theorem steps_on (laid : drawing.LaidOut) (call : Call α) : Steps drawing (call.on drawing) := by
  cases call with
  | edit change => exact steps_edit laid change
  | insertAtPoint x y instruction =>
      rcases on_insertAtPoint drawing x y instruction with
        ⟨error, fails⟩ | ⟨rung, position, rail, isEdit⟩
      · rw [fails]
        exact ⟨laid, rfl, fun _ _ => rfl⟩
      · rw [isEdit]
        exact steps_edit laid (.insertInstruction rung position rail instruction)
  | load source =>
      rcases Routine.ofSource_cases source with ⟨error, _, fails⟩ | ⟨routine, sound, _, _, loads⟩
      · simp only [Call.on, load, fails]
        exact ⟨laid, rfl, fun _ _ => rfl⟩
      · obtain ⟨loaded, makes, laidLoaded, sameConfig, _⟩ :=
          Drawing.exists_ofRoutine drawing.config sound
        simp only [Call.on, load, loads, makes]
        refine ⟨laidLoaded, sameConfig, ?_⟩
        intro error failed
        cases failed

theorem Reachable.laidOut {config : LayoutConfig α} (reachable : Reachable config drawing) :
    drawing.LaidOut := by
  induction reachable with
  | new => exact laidOut_blank config
  | called call _ laid => exact (steps_on laid call).laidOut

/-- A call that fails leaves everything but the report of the last layout as it was. -/
theorem unchanged_of_error {config : LayoutConfig α} (reachable : Reachable config drawing)
    (call : Call α) {error : LadderError} (fails : (call.on drawing).1 = .error error) :
    (call.on drawing).2.config = drawing.config ∧
    (call.on drawing).2.routine = drawing.routine ∧
    (call.on drawing).2.bands = drawing.bands ∧
    (call.on drawing).2.layouts = drawing.layouts ∧
    (call.on drawing).2.arena = drawing.arena ∧
    (call.on drawing).2.extent = drawing.extent := by
  have laid := reachable.laidOut
  have steps := steps_on laid call
  have sameRoutine := steps.routine_eq error fails
  have same := laid.unique steps.laidOut steps.config_eq sameRoutine
  rw [same]
  exact ⟨rfl, rfl, rfl, rfl, rfl, rfl⟩

/-- An editor that has read two rungs. -/
def sampleDrawing : Drawing Rat :=
  (Call.on (.blank .standard .empty) (.load Routine.sampleSource)).2

/-- A move that takes an instruction from one rung and finds no such gap in the other. -/
def sampleMove : Call Rat :=
  .edit (.moveElement ⟨.ofNat 0, .ofNat 1⟩ ⟨.ofNat 1, .ofNat 7, none, none⟩)

theorem unchanged_of_error_of_sample :
    ∃ error, (sampleMove.on sampleDrawing).1 = .error error ∧
      (sampleMove.on sampleDrawing).2.routine = sampleDrawing.routine ∧
      (sampleMove.on sampleDrawing).2.arena = sampleDrawing.arena := by
  obtain ⟨error, fails⟩ : ∃ error, (sampleMove.on sampleDrawing).1 = .error error :=
    exists_error_of_isNone (by decide +kernel)
  obtain ⟨_, sameRoutine, _, _, sameArena, _⟩ :=
    unchanged_of_error (.called (.load Routine.sampleSource) .new) sampleMove fails
  exact ⟨error, fails, sameRoutine, sameArena⟩

end Editor
end LadderDiagram
