import LadderDiagram.Proofs.Drawing.Run
import LadderDiagram.Proofs.Layout.RenamedWires
import LadderDiagram.Proofs.Routine.Renaming

/-!
# Drawings of renamed routines

What a drawing shows of a rung depends on its elements, its comment and the rungs above.  So two
drawings that are laid out, of routines that differ in their handles only, differ in these only: all
rungs stand in the same bands, with the same wires.
-/

namespace LadderDiagram
namespace Drawing

variable {α : Type} [Scalar α] {drawing other : Drawing α} {names : BranchId → BranchId}

theorem rungInput_rename (index : Nat) (y : α) (rung : Rung) :
    rungInput index y (rung.rename names) = (rungInput index y rung).rename names := rfl

/-- Two drawings that are laid out, one of them of the routine of the other with other handles. -/
structure AreAlike (names : BranchId → BranchId) (drawing other : Drawing α) : Prop where
  laid : drawing.LaidOut
  otherLaid : other.LaidOut
  config_eq : other.config = drawing.config
  rungs_eq : other.routine.rungs = drawing.routine.rungs.map (Rung.rename names)

namespace AreAlike

variable (alike : AreAlike names drawing other)

include alike

theorem size_eq : other.routine.size = drawing.routine.size := by
  rw [Routine.size, alike.rungs_eq, List.length_map]
  rfl

/-- Where a rung begins in the same place, it is laid out alike. -/
theorem draws_of_sameStart {index : Nat} (bounded : index < drawing.routine.size)
    (sameStart : other.bandStart index = drawing.bandStart index) :
    ∃ rung layout, drawing.Draws index rung layout ∧
      other.Draws index (rung.rename names) (layout.rename names) := by
  obtain ⟨rung, layout, draws⟩ := alike.laid.exists_draws bounded
  have standsToo : other.routine.rungs[index]? = some (rung.rename names) := by
    rw [alike.rungs_eq, List.getElem?_map, draws.stands]
    rfl
  obtain ⟨own, drawsToo⟩ := alike.otherLaid.draws index _ standsToo not_false
  have isOf := drawsToo.isOf
  rw [alike.config_eq, sameStart, rungInput_rename] at isOf
  obtain rfl := draws.isOf.rename_eq isOf
  exact ⟨rung, layout, draws, drawsToo⟩

theorem bandStart_eq {index : Nat} (within : index ≤ drawing.routine.size) :
    other.bandStart index = drawing.bandStart index := by
  induction index with
  | zero => rw [bandStart, bandStart, alike.config_eq]
  | succ before ih =>
      have start := ih (Nat.le_of_succ_le within)
      obtain ⟨rung, layout, draws, drawsToo⟩ := alike.draws_of_sameStart within start
      rw [draws.bandStart_succ, drawsToo.bandStart_succ, alike.config_eq, start]
      rfl

theorem exists_draws {index : Nat} (bounded : index < drawing.routine.size) :
    ∃ rung layout, drawing.Draws index rung layout ∧
      other.Draws index (rung.rename names) (layout.rename names) :=
  alike.draws_of_sameStart bounded (alike.bandStart_eq bounded.le)

/-- The rungs stand in the same bands. -/
theorem bands_eq : other.bands = drawing.bands := by
  apply List.ext_getElem?
  intro index
  by_cases bounded : index < drawing.routine.size
  · obtain ⟨rung, layout, draws, drawsToo⟩ := alike.exists_draws bounded
    rw [draws.band, drawsToo.band, alike.bandStart_eq bounded.le]
    rfl
  · rw [List.getElem?_eq_none (by rw [alike.otherLaid.bands_length, alike.size_eq]; omega),
      List.getElem?_eq_none (by rw [alike.laid.bands_length]; omega)]

/-- The layouts are the same but for the handles. -/
theorem layouts_eq : other.layouts = drawing.layouts.map (LayoutResult.rename names) := by
  apply List.ext_getElem?
  intro index
  rw [List.getElem?_map]
  by_cases bounded : index < drawing.routine.size
  · obtain ⟨rung, layout, draws, drawsToo⟩ := alike.exists_draws bounded
    rw [draws.cached, drawsToo.cached]
    rfl
  · rw [List.getElem?_eq_none (by rw [alike.otherLaid.length_layouts, alike.size_eq]; omega),
      List.getElem?_eq_none (by rw [alike.laid.length_layouts]; omega)]
    rfl

theorem extent_eq : other.extent = drawing.extent := by
  have last : other.layouts.getLast? =
      drawing.layouts.getLast?.map (LayoutResult.rename names) := by
    rw [alike.layouts_eq, List.getLast?_map]
  unfold extent
  rw [last, alike.layouts_eq, alike.config_eq, List.length_map, List.foldl_map]
  cases drawing.layouts.getLast? <;> rfl

theorem wires_eq (injective : Function.Injective names) (config : LayoutConfig α) :
    other.layouts.map (·.wires config) = drawing.layouts.map (·.wires config) := by
  rw [alike.layouts_eq, List.map_map]
  exact List.map_congr_left fun layout _ => layout.wires_rename injective

end AreAlike

end Drawing
end LadderDiagram
