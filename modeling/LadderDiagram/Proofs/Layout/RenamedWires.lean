import LadderDiagram.Layout.Wire
import LadderDiagram.Proofs.Layout.Renaming

/-!
# The wires of renamed layouts

Wires are drawn along rails and between markers that are found by their handles.  As long as no two
handles fall together, other handles find the same elements and the same records, so there are the
same wires.
-/

namespace LadderDiagram

variable {α : Type} {names : BranchId → BranchId}

def RailRun.rename (names : BranchId → BranchId) (run : RailRun α) : RailRun α :=
  { run with members := run.members.map (LayoutElement.rename names) }

namespace LayoutElement

@[simp] theorem kind_rename (placed : LayoutElement α) : (placed.rename names).kind = placed.kind :=
  placed.element.kind_rename

@[simp] theorem branchId_rename (placed : LayoutElement α) :
    (placed.rename names).branchId = placed.branchId.map names :=
  placed.element.branchId_rename

end LayoutElement

namespace LayoutResult

variable (injective : Function.Injective names)

section Handles

include injective

theorem beq_rename (first second : BranchId) :
    (names first == names second) = (first == second) := by
  rw [Bool.eq_iff_iff, beq_iff_eq, beq_iff_eq, injective.eq_iff]

theorem beq_map_rename (first second : Option BranchId) :
    (first.map names == second.map names) = (first == second) := by
  rw [Bool.eq_iff_iff, beq_iff_eq, beq_iff_eq, (Option.map_injective injective).eq_iff]

theorem bridgesBranch_rename (previous : Option (LayoutElement α)) (member : LayoutElement α) :
    bridgesBranch (previous.map (LayoutElement.rename names)) (member.rename names) =
      bridgesBranch previous member := by
  unfold bridgesBranch
  cases previous with
  | none => rw [LayoutElement.kind_rename]; rfl
  | some before =>
      simp only [Option.map_some, Option.any_some, LayoutElement.kind_rename,
        LayoutElement.branchId_rename, beq_map_rename injective]

end Handles

variable [Scalar α] {config : LayoutConfig α} (layout : LayoutResult α)

section Wires

include injective

theorem wiresAlong_rename (run : RailRun α) (cursor : α) (previous : Option (LayoutElement α))
    (members : List (LayoutElement α)) :
    (layout.rename names).wiresAlong (run.rename names) cursor
        (previous.map (LayoutElement.rename names)) (members.map (LayoutElement.rename names)) =
      layout.wiresAlong run cursor previous members := by
  induction members generalizing cursor previous with
  | nil => rfl
  | cons member rest ih =>
      have later := ih (member.x + member.width) (some member)
      rw [List.map_cons, wiresAlong, bridgesBranch_rename injective, wiresAlong]
      exact congrArg _ later

theorem railWires_rename (run : RailRun α) :
    (layout.rename names).railWires (run.rename names) = layout.railWires run :=
  wiresAlong_rename injective layout run run.startX none run.members

end Wires

omit [Scalar α] in
/-- A choice of elements that does not look at the names chooses the same ones. -/
theorem filter_rename {keeps keepsRenamed : LayoutElement α → Bool}
    (same : ∀ placed, keepsRenamed (placed.rename names) = keeps placed) :
    (layout.rename names).elements.filter keepsRenamed =
      (layout.elements.filter keeps).map (LayoutElement.rename names) := by
  change (layout.elements.map (LayoutElement.rename names)).filter keepsRenamed = _
  rw [List.filter_map]
  exact congrArg _ (List.filter_congr fun placed _ => same placed)

theorem mainRun_rename :
    (layout.rename names).mainRun config = (layout.mainRun config).rename names :=
  congrArg (RailRun.mk _ _ _) (layout.filter_rename fun _ => Option.isNone_map)

section Handles

include injective

theorem branchRun_rename (branch : Branch α) :
    (layout.rename names).branchRun config (branch.rename names) =
      (layout.branchRun config branch).rename names := by
  refine congrArg (RailRun.mk _ _ _) (layout.filter_rename fun placed => ?_)
  have rail : (placed.rename names).railId = placed.railId.map names := rfl
  have own : some (branch.rename names).id = (some branch.id).map names := rfl
  rw [rail, own, beq_map_rename injective, LayoutElement.kind_rename]

omit [Scalar α] in
theorem lastRail_rename (branch : Branch α) :
    (layout.rename names).lastRail (branch.rename names) =
      (layout.lastRail branch).rename names := by
  have last : (branch.rename names).childIds.getLast? = branch.childIds.getLast?.map names :=
    List.getLast?_map
  unfold lastRail
  rw [last]
  cases branch.childIds.getLast? with
  | none => rfl
  | some id =>
      have found : (layout.rename names).branches.find? (·.id == names id) =
          (layout.branches.find? (·.id == id)).map (Branch.rename names) := by
        change (layout.branches.map (Branch.rename names)).find? _ = _
        rw [List.find?_map]
        exact congrArg (Option.map _) (congrArg (List.find? · _)
          (funext fun record => beq_rename injective record.id id))
      rw [Option.map_some]
      dsimp only
      rw [found, Option.getD_map]

theorem dropWires_rename (branch : Branch α) :
    (layout.rename names).dropWires config (branch.rename names) =
      layout.dropWires config branch := by
  have found : (layout.rename names).elements.find? (fun placed =>
      placed.kind == .branchStart && placed.branchId == some (branch.rename names).id) =
        (layout.elements.find? fun placed => placed.kind == .branchStart &&
          placed.branchId == some branch.id).map (LayoutElement.rename names) := by
    change (layout.elements.map (LayoutElement.rename names)).find? _ = _
    rw [List.find?_map]
    refine congrArg (Option.map _) (congrArg (List.find? · _) (funext fun placed => ?_))
    have own : some (branch.rename names).id = (some branch.id).map names := rfl
    rw [Function.comp_apply, LayoutElement.kind_rename, LayoutElement.branchId_rename, own,
      beq_map_rename injective]
  unfold dropWires
  rw [found, lastRail_rename injective]
  cases layout.elements.find? fun placed => placed.kind == .branchStart &&
    placed.branchId == some branch.id <;> rfl

omit [Scalar α] in
theorem wholeBranches_rename :
    (layout.rename names).wholeBranches = layout.wholeBranches.map (Branch.rename names) := by
  have children : (layout.rename names).branches.flatMap (·.childIds) =
      (layout.branches.flatMap (·.childIds)).map names := by
    change (layout.branches.map (Branch.rename names)).flatMap _ = _
    rw [List.flatMap_map, List.map_flatMap]
    rfl
  unfold wholeBranches
  rw [children]
  change (layout.branches.map (Branch.rename names)).filter _ = _
  rw [List.filter_map]
  refine congrArg _ (List.filter_congr fun branch _ => congrArg not ?_)
  rw [Bool.eq_iff_iff, List.contains_iff_mem, List.contains_iff_mem]
  exact List.mem_map_of_injective injective

/-- A layout with other handles has the same wires. -/
theorem wires_rename : (layout.rename names).wires config = layout.wires config := by
  have runs : ((layout.rename names).branches.map ((layout.rename names).branchRun config)) =
      (layout.branches.map (layout.branchRun config)).map (RailRun.rename names) := by
    change (layout.branches.map (Branch.rename names)).map _ = _
    rw [List.map_map, List.map_map]
    exact List.map_congr_left fun branch _ => branchRun_rename injective layout branch
  have along : ((layout.rename names).mainRun config ::
      (layout.rename names).branches.map ((layout.rename names).branchRun config)).flatMap
        (layout.rename names).railWires =
      (layout.mainRun config :: layout.branches.map (layout.branchRun config)).flatMap
        layout.railWires := by
    rw [runs, mainRun_rename, ← List.map_cons, List.flatMap_map]
    exact List.flatMap_congr fun run _ => railWires_rename injective layout run
  have drops : (layout.rename names).wholeBranches.flatMap
      ((layout.rename names).dropWires config) =
        layout.wholeBranches.flatMap (layout.dropWires config) := by
    rw [wholeBranches_rename injective, List.flatMap_map]
    exact List.flatMap_congr fun branch _ => dropWires_rename injective layout branch
  unfold wires
  rw [along, drops]
  rfl

end Handles

end LayoutResult

end LadderDiagram
