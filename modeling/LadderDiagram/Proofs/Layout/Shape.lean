import LadderDiagram.Proofs.Layout.Engine
import LadderDiagram.Proofs.Layout.Recursion

/-!
# The shape of a layout

Which element stands on which rail, and which records there are with which positions and
levels, does not depend on any measure.  The pass is run once more over numbers that all are
the same one: whatever numbers a layout is made with, what it is without them is the same.
-/

namespace LadderDiagram

/-- A number of which nothing is known. -/
structure Unmeasured where

instance : Scalar Unmeasured where
  add _ _ := ⟨⟩
  sub _ _ := ⟨⟩
  mul _ _ := ⟨⟩
  ofNat _ := ⟨⟩
  half _ := ⟨⟩
  round _ := ⟨⟩
  isWhole _ := true
  lt _ _ := false
  le _ _ := true
  eq _ _ := true
  max _ _ := ⟨⟩
  toFloat _ := 0

variable {α : Type}

/-! ### What is left without measures -/

namespace Branch

def shape (branch : Branch α) : Branch Unmeasured :=
  { branch with startX := ⟨⟩, endX := ⟨⟩, branchY := ⟨⟩, startY := ⟨⟩, endY := ⟨⟩ }

end Branch

namespace LayoutElement

def shape (placed : LayoutElement α) : LayoutElement Unmeasured :=
  { placed with x := ⟨⟩, y := ⟨⟩, width := ⟨⟩, height := ⟨⟩ }

end LayoutElement

namespace LayoutResult

def shape (layout : LayoutResult α) : LayoutResult Unmeasured :=
  { layout with
    y := ⟨⟩
    height := ⟨⟩
    commentHeight := ⟨⟩
    rowCount := ⟨⟩
    rightEdge := ⟨⟩
    rightRailX := ⟨⟩
    elements := layout.elements.map LayoutElement.shape
    branches := layout.branches.map Branch.shape }

end LayoutResult

namespace RungInput

def shape (input : RungInput α) : RungInput Unmeasured :=
  { input with y := ⟨⟩, commentLines := ⟨⟩ }

end RungInput

namespace RailCursor

def shape (cursor : RailCursor α) : RailCursor Unmeasured :=
  { cursor with originX := ⟨⟩, row := ⟨⟩, lastRight := cursor.lastRight.map fun _ => ⟨⟩ }

end RailCursor

namespace OpenContext

def shape (context : OpenContext α) : OpenContext Unmeasured :=
  { context with rail := context.rail.shape, maxRight := ⟨⟩, maxRow := ⟨⟩ }

end OpenContext

namespace BranchPass

/-- The shape of a pass; the arena, into which no pass looks, is left out. -/
def shape (pass : BranchPass α) : BranchPass Unmeasured where
  arena := .empty
  rungNumber := pass.rungNumber
  contexts := pass.contexts.map OpenContext.shape
  records := pass.records.map Branch.shape

/-! ### Passes -/

theorem childrenOf_shape (pass : BranchPass α) (context : OpenContext α) :
    pass.shape.childrenOf context.shape = (pass.childrenOf context).map Branch.shape := by
  unfold childrenOf
  rw [List.map_filterMap]
  exact congrArg (List.filterMap · context.children) (funext fun slot => List.getElem?_map)

theorem setAll_shape (records : List (Branch α)) (slots : List Nat)
    (branches : List (Branch α)) :
    (setAll records slots branches).map Branch.shape =
      setAll (records.map Branch.shape) slots (branches.map Branch.shape) := by
  induction slots generalizing records branches with
  | nil => cases branches <;> rfl
  | cons slot slots ih =>
      cases branches with
      | nil => rfl
      | cons branch rest =>
          rw [setAll, ih, List.map_set]
          rfl

theorem mapTop_shape (pass : BranchPass α) (change : OpenContext α → OpenContext α)
    (shapeChange : OpenContext Unmeasured → OpenContext Unmeasured)
    (same : ∀ context, (change context).shape = shapeChange context.shape) :
    (pass.mapTop change).shape = pass.shape.mapTop shapeChange := by
  obtain ⟨arena, number, contexts, records⟩ := pass
  cases contexts with
  | nil => rfl
  | cons context outer =>
      unfold mapTop shape
      simp only [List.map_cons, same]

variable [Scalar α]

theorem finishChildren_shape (position : Address) (closing : BranchClosing α)
    (children : List (Branch α)) :
    (finishChildren position closing children).map Branch.shape =
      finishChildren position ⟨⟨⟩, ⟨⟩⟩ (children.map Branch.shape) := by
  induction children with
  | nil => rfl
  | cons child rest ih =>
      cases rest with
      | nil => rfl
      | cons following rest =>
          rw [finishChildren, List.map_cons, ih]
          rfl

theorem openBranch_shape (pass : BranchPass α) (id : BranchId) (element : Element)
    (opening : BranchOpening α) :
    (pass.openBranch id element opening).shape =
      pass.shape.openBranch id element
        ⟨opening.rungNumber, ⟨⟩, ⟨⟩, ⟨⟩, ⟨⟩, opening.parentRailId⟩ := by
  unfold openBranch shape
  simp only [List.map_append, List.map_cons, List.length_map]
  rfl

theorem nextRail_shape (pass : BranchPass α) (id : BranchId) (position : Address)
    (rowY : α → α) (shapeRowY : Unmeasured → Unmeasured) :
    pass.shape.nextRail id position shapeRowY =
      (pass.nextRail id position rowY).map fun (child, next) => (child.shape, next.shape) := by
  obtain ⟨arena, number, contexts, records⟩ := pass
  cases contexts with
  | nil => rfl
  | cons context outer =>
      unfold nextRail shape
      simp only [List.map_cons, OpenContext.shape, List.getElem?_map]
      cases records[context.slot]? with
      | none => rfl
      | some parent =>
          simp only [Option.map_some, Except.map, List.map_append, List.map_set, List.length_map,
            List.map_cons]
          rfl

theorem closeBranch_shape (pass : BranchPass α) (id : BranchId) (position : Address)
    (closingOf : OpenContext α → Branch α → BranchClosing α)
    (shapeClosingOf : OpenContext Unmeasured → Branch Unmeasured → BranchClosing Unmeasured) :
    pass.shape.closeBranch id position shapeClosingOf =
      ((pass.closeBranch id position closingOf).1.map fun (branch, context) =>
          (branch.shape, context.shape),
        (pass.closeBranch id position closingOf).2.shape) := by
  obtain ⟨arena, number, contexts, records⟩ := pass
  cases contexts with
  | nil => rfl
  | cons context outer =>
      have shaped : shape ⟨arena, number, context :: outer, records⟩ =
          ⟨.empty, number, context.shape :: outer.map OpenContext.shape,
            records.map Branch.shape⟩ := rfl
      have children := childrenOf_shape ⟨arena, number, context :: outer, records⟩ context
      have found : (records.map Branch.shape)[context.shape.slot]? =
          records[context.slot]?.map Branch.shape := List.getElem?_map
      rw [shaped] at children ⊢
      unfold closeBranch
      simp only [found]
      cases records[context.slot]? with
      | none => rfl
      | some record =>
          have sameId : record.shape.id = record.id := rfl
          simp only [Option.map_some, sameId]
          by_cases same : record.id = id
          · simp only [same, ne_eq, not_true_eq_false, if_false]
            refine Prod.ext rfl ?_
            rw [mapTop_shape _ _ (fun parent => { parent with maxRight := ⟨⟩, maxRow := ⟨⟩ })
              fun _ => rfl]
            unfold shape
            rw [setAll_shape, List.map_set, finishChildren_shape, ← children]
            rfl
          · simp only [same, ne_eq, not_false_eq_true, if_true]
            rfl

end BranchPass

/-! ### Layouts -/

namespace LayoutState

def shape (state : LayoutState α) : LayoutState Unmeasured where
  pass := state.pass.shape
  mainRail := state.mainRail.shape
  maxRow := ⟨⟩
  rightEdge := ⟨⟩
  placed := state.placed.map LayoutElement.shape

theorem rail_shape (state : LayoutState α) : state.shape.rail = state.rail.shape := by
  obtain ⟨⟨arena, number, contexts, records⟩, mainRail, maxRow, rightEdge, placed⟩ := state
  cases contexts <;> rfl

theorem mapRail_shape (state : LayoutState α) (change : RailCursor α → RailCursor α)
    (shapeChange : RailCursor Unmeasured → RailCursor Unmeasured)
    (same : ∀ cursor, (change cursor).shape = shapeChange cursor.shape) :
    (state.mapRail change).shape = state.shape.mapRail shapeChange := by
  obtain ⟨⟨arena, number, contexts, records⟩, mainRail, maxRow, rightEdge, placed⟩ := state
  cases contexts with
  | nil =>
      change LayoutState.mk _ (change mainRail).shape _ _ _ = _
      rw [same]
      rfl
  | cons context outer =>
      unfold mapRail shape
      simp only [BranchPass.top?, BranchPass.shape, List.head?_cons, List.map_cons,
        BranchPass.mapTop, OpenContext.shape, same]

theorem pass_shape (state : LayoutState α) : state.shape.pass = state.pass.shape := rfl

theorem emit_shape (state : LayoutState α) (rungNumber : Address) (element : Element) (x y : α)
    (size : Size α) (railId : Option BranchId) :
    (state.emit rungNumber element x y size railId).shape =
      state.shape.emit rungNumber element ⟨⟩ ⟨⟩ ⟨⟨⟩, ⟨⟩⟩ railId := rfl

variable [Scalar α] (config : LayoutConfig α) (measureless : LayoutConfig Unmeasured)

theorem takePlace_shape (state : LayoutState α) (width : α) :
    (state.takePlace config width).2.shape = (state.shape.takePlace measureless ⟨⟩).2 := by
  have moved := mapRail_shape state
    (fun rail => { rail with lastRight := some (nextX config state.rail + width) })
    (fun rail => { rail with lastRight := some ⟨⟩ }) fun _ => rfl
  have widened := BranchPass.mapTop_shape
    (state.mapRail fun rail =>
      { rail with lastRight := some (nextX config state.rail + width) }).pass
    (fun context =>
      { context with maxRight := Scalar.max context.maxRight (nextX config state.rail + width) })
    (fun context => { context with maxRight := ⟨⟩ }) fun _ => rfl
  unfold takePlace
  change LayoutState.mk (BranchPass.shape _) (RailCursor.shape _) _ _ _ = _
  rw [widened]
  have parts := LayoutState.mk.inj moved
  obtain ⟨pass, mainRail, _, _, placed⟩ := parts
  rw [pass, mainRail, placed]
  rfl

theorem opened_shape (state : LayoutState α) (id : BranchId) (element : Element)
    (opening : BranchOpening α) (maxRow : α) :
    shape { state with pass := state.pass.openBranch id element opening, maxRow := maxRow } =
      { state.shape with
        pass := state.shape.pass.openBranch id element
          ⟨opening.rungNumber, ⟨⟩, ⟨⟩, ⟨⟩, ⟨⟩, opening.parentRailId⟩
        maxRow := ⟨⟩ } :=
  congrArg (LayoutState.mk · _ _ _ _) (BranchPass.openBranch_shape state.pass id element opening)

theorem step_shape (input : RungInput α) (state : LayoutState α) (element : Element) :
    state.shape.step measureless input.shape element =
      (state.step config input element).map shape := by
  unfold step
  cases element.draft with
  | instruction content =>
      have placed := takePlace_shape config measureless state (config.sizeOf content.category).width
      dsimp only
      rw [rail_shape, Except.map, emit_shape, placed]
      rfl
  | branchStart id =>
      have placed := takePlace_shape config measureless state config.sizes.branchMarker.width
      dsimp only
      rw [rail_shape, Except.map, emit_shape, opened_shape, placed]
      rfl
  | branchNext id =>
      dsimp only
      rw [pass_shape, BranchPass.nextRail_shape state.pass id element.position (input.rowY config)]
      rcases state.pass.nextRail id element.position (input.rowY config) with
        error | ⟨child, pass⟩
      · rfl
      · rfl
  | branchEnd id =>
      dsimp only
      rw [pass_shape, BranchPass.closeBranch_shape state.pass id element.position fun context _ =>
        ⟨context.maxRight + config.elementSpacing + config.minimumWireLength +
            config.sizes.branchMarker.width,
          input.rowY config context.maxRow + config.branchSpacing - Scalar.ofNat 1⟩]
      rcases state.pass.closeBranch id element.position _ with ⟨error | ⟨branch, context⟩, pass⟩
      · rfl
      · -- The end marker goes to the rail that is current once its branch is closed.
        have moved := mapRail_shape { state with pass := pass }
          (fun rail => { rail with lastRight := some (context.maxRight + config.elementSpacing +
            config.minimumWireLength + config.sizes.branchMarker.width) })
          (fun rail => { rail with lastRight := some ⟨⟩ }) fun _ => rfl
        refine (congrArg (fun next : LayoutState Unmeasured => Except.ok
          (emit { next with rightEdge := ⟨⟩ } input.rungNumber element ⟨⟩ ⟨⟩ ⟨⟨⟩, ⟨⟩⟩
            next.rail.railId)) moved.symm).trans ?_
        dsimp only
        rw [rail_shape]
        rfl

theorem run_shape (input : RungInput α) (state : LayoutState α) (elements : List Element) :
    state.shape.run measureless input.shape elements =
      (state.run config input elements).map shape := by
  induction elements generalizing state with
  | nil => rfl
  | cons element rest ih =>
      rw [run, run, step_shape config measureless]
      cases state.step config input element with
      | error error => rfl
      | ok next => exact ih next

theorem result_shape (input : RungInput α) (state : LayoutState α) (branches : List (Branch α)) :
    (state.result config input branches).shape =
      state.shape.result measureless input.shape (branches.map Branch.shape) := by
  unfold result LayoutResult.shape
  simp only [shape, List.map_reverse, List.foldl_map]
  rfl

end LayoutState

/-- The shape of a layout is the layout of the shape. -/
theorem layoutRung_shape [Scalar α] (config : LayoutConfig α)
    (measureless : LayoutConfig Unmeasured) {input : RungInput α} {layout : LayoutResult α}
    {arena : Arena α} (laidOut : layoutRung config .empty input = .ok (layout, arena)) :
    ∃ shapeArena, layoutRung measureless .empty input.shape = .ok (layout.shape, shapeArena) := by
  have runs := LayoutState.run_shape config measureless input (.start config .empty input)
    input.elements
  have start : (LayoutState.start config .empty input).shape =
      .start measureless .empty input.shape := rfl
  have elements : input.shape.elements = input.elements := rfl
  obtain ⟨final, passes, closed, rfl⟩ := exists_run_of_layoutRung laidOut
  have result := LayoutState.result_shape config measureless input final final.pass.records
  unfold layoutRung
  rw [elements, ← start, runs, passes]
  dsimp only [Except.map]
  rw [LayoutState.pass_shape, BranchPass.commit, BranchPass.shape, closed, result]
  exact ⟨_, rfl⟩

/-- Two layouts of the same elements have one shape, whatever numbers they are made with. -/
theorem LayoutResult.IsOf.shape_eq {β : Type} [Scalar α] [Scalar β] {config : LayoutConfig α}
    {other : LayoutConfig β} {input : RungInput α} {otherInput : RungInput β}
    {layout : LayoutResult α} {otherLayout : LayoutResult β} (isOf : layout.IsOf config input)
    (otherIsOf : otherLayout.IsOf other otherInput) (same : input.shape = otherInput.shape) :
    layout.shape = otherLayout.shape := by
  obtain ⟨arena, laidOut⟩ := layoutRung_shape config .standard (isOf.laidOut .empty)
  obtain ⟨otherArena, otherLaidOut⟩ := layoutRung_shape other .standard (otherIsOf.laidOut .empty)
  rw [same] at laidOut
  exact congrArg Prod.fst (Except.ok.inj (laidOut.symm.trans otherLaidOut))

theorem LayoutConfig.keepsRules_standard :
    (LayoutConfig.standard : LayoutConfig Rat).KeepsRules :=
  LayoutConfig.keepsRules_of_isValid (by decide +kernel)

/-- A layout has the shape of the standard one, which the recursion over its tree computes. -/
theorem LayoutResult.IsOf.exists_tree [Scalar α] {config : LayoutConfig α}
    {input : RungInput α} {layout : LayoutResult α} (isOf : layout.IsOf config input)
    {source : List Draft} (annotates : annotate source = .ok input.elements)
    {twin : RungInput Rat} (same : input.shape = twin.shape) :
    ∃ tree : RailTree, tree.drafts = source ∧ input.elements = tree.elements .main 0 ∧
      layout.shape = (tree.layout .standard twin).shape := by
  obtain ⟨tree, rfl⟩ := exists_railTree (wellNested_of_annotate annotates)
  have annotated : input.elements = tree.elements .main 0 := elements_of_annotate annotates
  have sameElements : input.elements = twin.elements := congrArg RungInput.elements same
  have nested : WellNested (drafts twin.elements) := by
    rw [← sameElements, drafts_of_annotate annotates]
    exact wellNested_of_annotate annotates
  obtain ⟨standard, standardIsOf⟩ := exists_isOf LayoutConfig.standard twin nested
  have lays := layoutRung_eq LayoutConfig.keepsRules_standard (sameElements ▸ annotated) .empty
  have isTwin : standard = tree.layout .standard twin :=
    congrArg Prod.fst (Except.ok.inj ((standardIsOf.laidOut .empty).symm.trans lays))
  exact ⟨tree, rfl, annotated, isTwin ▸ isOf.shape_eq standardIsOf same⟩

end LadderDiagram
