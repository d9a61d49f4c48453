import LadderDiagram.Editor.Basic
import LadderDiagram.Proofs.Drawing.Content
import LadderDiagram.Proofs.Routine.Run

/-!
# Calls of the editor

The calls of the editor that change the drawing are edits, an insertion where a point
is, and the reading of another routine.  Each of them acts on the routine as an edit of
the drawing or as a new drawing does, and the events that it reports depend on the
outcome only.
-/

namespace LadderDiagram
namespace Editor

variable {α : Type}

/-- A call of the editor that may change the drawing. -/
inductive Call (α : Type)
  | edit (edit : Edit)
  | insertAtPoint (x y : α) (instruction : Instruction)
  | load (source : RoutineSource)

/-- The instructions that a call is given have a property. -/
def Call.Brings (own : Instruction → Prop) : Call α → Prop
  | .edit change => change.Brings own
  | .insertAtPoint _ _ instruction => own instruction
  | .load _ => True

variable [Scalar α]

/-- Whether a call succeeds on a drawing, and the drawing after it. -/
def Call.on (drawing : Drawing α) : Call α → Except LadderError Unit × Drawing α
  | .edit change =>
      let reply := Editor.perform drawing change
      (reply.outcome.map fun _ => (), reply.drawing)
  | .insertAtPoint x y instruction =>
      let reply := Editor.insertAtPoint drawing x y instruction
      (reply.outcome.map fun _ => (), reply.drawing)
  | .load source =>
      let reply := Editor.load drawing source
      (reply.outcome.map fun _ => (), reply.drawing)

section Reports

variable {β : Type} (action : String) (arguments : List (String × Json))
  (result : Except LadderError β × Drawing α)

@[simp] theorem report_outcome : (report action arguments result).outcome = result.1 := by
  obtain ⟨error | value, drawing⟩ := result
  · rfl
  · rfl

@[simp] theorem report_drawing : (report action arguments result).drawing = result.2 := by
  obtain ⟨error | value, drawing⟩ := result
  · rfl
  · rfl

end Reports

theorem on_edit (drawing : Drawing α) (change : Edit) :
    Call.on drawing (.edit change) =
      ((drawing.apply change).1.map fun _ => (), (drawing.apply change).2) := by
  simp only [Call.on, perform, performAs, report_outcome, report_drawing]

/-- An insertion where a point is fails, or it is one into the gap that is found there. -/
theorem on_insertAtPoint (drawing : Drawing α) (x y : α) (instruction : Instruction) :
    (∃ error, Call.on drawing (.insertAtPoint x y instruction) = (.error error, drawing)) ∨
      ∃ rung position rail, Call.on drawing (.insertAtPoint x y instruction) =
        Call.on drawing (.edit (.insertInstruction rung position rail instruction)) := by
  cases found : drawing.resolveInsertion x y with
  | error error =>
      left
      refine ⟨error, ?_⟩
      simp only [Call.on, insertAtPoint, found, report_outcome, report_drawing]
      rfl
  | ok target =>
      right
      refine ⟨target.rungNumber, target.position, target.branchId, ?_⟩
      rw [on_edit]
      simp only [Call.on, insertAtPoint, insertAt, found, report_outcome, report_drawing]
      rcases drawing.apply (.insertInstruction target.rungNumber target.position target.branchId
        instruction) with ⟨error | answer, after⟩
      · rfl
      · rfl

/-- The reading of a routine fails and changes nothing, or it leaves what was read. -/
theorem on_load_cases (drawing : Drawing α) (source : RoutineSource) :
    (Call.on drawing (.load source)).2 = drawing ∨
      (Call.on drawing (.load source)).2.routine.Carries Instruction.IsRead := by
  rcases Routine.ofSource_cases source with ⟨error, _, fails⟩ | ⟨routine, sound, isRead, commented, loads⟩
  · left
    simp only [Call.on, load, fails]
  · right
    have made : (Drawing.ofRoutine drawing.config routine).2.routine = routine :=
      Drawing.relayAll_leavesRoutine routine (.blank drawing.config routine) rfl
    simp only [Call.on, load, loads]
    rcases outcome : Drawing.ofRoutine drawing.config routine with ⟨error | answer, loaded⟩
    all_goals
      rw [outcome] at made
      obtain rfl : loaded.routine = routine := made
      exact ⟨sound, isRead, commented⟩

/-- Every call leaves the routine sound, with instructions that are read or that it was given. -/
theorem Call.on_carries {own : Instruction → Prop}
    (reads : ∀ content : Instruction, content.IsRead → own content) {drawing : Drawing α}
    (carries : drawing.routine.Carries own) (call : Call α) (brings : call.Brings own) :
    (call.on drawing).2.routine.Carries own := by
  have edits (change : Edit) (changeBrings : change.Brings own) :
      (Call.on drawing (.edit change)).2.routine.Carries own := by
    rw [on_edit]
    exact Drawing.act_keepsContent reads change changeBrings drawing carries
  cases call with
  | edit change => exact edits change brings
  | insertAtPoint x y instruction =>
      rcases on_insertAtPoint drawing x y instruction with
        ⟨error, fails⟩ | ⟨rung, position, rail, isEdit⟩
      · rw [fails]
        exact carries
      · rw [isEdit]
        exact edits (.insertInstruction rung position rail instruction) brings
  | load source =>
      rcases on_load_cases drawing source with same | loaded
      · rw [same]
        exact carries
      · exact loaded.mono reads

end Editor
end LadderDiagram
