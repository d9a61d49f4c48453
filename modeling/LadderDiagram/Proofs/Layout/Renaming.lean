import LadderDiagram.Proofs.Layout.Engine
import LadderDiagram.Proofs.Sequence.Renaming

/-!
# Renamed layouts

A pass over a rung keeps handles and hands them on, but it does not compute with them.  So the
layout of a rung with other handles is its layout with other handles: every element and every record
is where it was.
-/

namespace LadderDiagram

variable {α : Type} {names : BranchId → BranchId}

/-! ### Other handles -/

/-- A record with another handle for every one that it names. -/
def Branch.rename (names : BranchId → BranchId) (branch : Branch α) : Branch α :=
  { branch with
    id := names branch.id
    parentId := branch.parentId.map names
    childIds := branch.childIds.map names
    rootId := names branch.rootId }

def LayoutElement.rename (names : BranchId → BranchId) (placed : LayoutElement α) :
    LayoutElement α :=
  { placed with element := placed.element.rename names, railId := placed.railId.map names }

/-- A layout with other handles, and all places, measures and levels as they are. -/
def LayoutResult.rename (names : BranchId → BranchId) (layout : LayoutResult α) :
    LayoutResult α :=
  { layout with
    elements := layout.elements.map (LayoutElement.rename names)
    branches := layout.branches.map (Branch.rename names) }

def RungInput.rename (names : BranchId → BranchId) (input : RungInput α) : RungInput α :=
  { input with elements := input.elements.map (Element.rename names) }

def RailCursor.rename (names : BranchId → BranchId) (cursor : RailCursor α) : RailCursor α :=
  { cursor with railId := cursor.railId.map names }

def OpenContext.rename (names : BranchId → BranchId) (context : OpenContext α) : OpenContext α :=
  { context with rail := context.rail.rename names }

/-! ### Passes -/

namespace BranchPass

/-- A pass over a renamed rung; the arena, into which no pass looks, is left out. -/
def rename (names : BranchId → BranchId) (pass : BranchPass α) : BranchPass α where
  arena := .empty
  rungNumber := pass.rungNumber
  contexts := pass.contexts.map (OpenContext.rename names)
  records := pass.records.map (Branch.rename names)

theorem childrenOf_rename (pass : BranchPass α) (context : OpenContext α) :
    (pass.rename names).childrenOf (context.rename names) =
      (pass.childrenOf context).map (Branch.rename names) := by
  unfold childrenOf
  rw [List.map_filterMap]
  exact congrArg (List.filterMap · context.children) (funext fun slot => List.getElem?_map)

theorem setAll_rename (records : List (Branch α)) (slots : List Nat)
    (branches : List (Branch α)) :
    (setAll records slots branches).map (Branch.rename names) =
      setAll (records.map (Branch.rename names)) slots (branches.map (Branch.rename names)) := by
  induction slots generalizing records branches with
  | nil => cases branches <;> rfl
  | cons slot slots ih =>
      cases branches with
      | nil => rfl
      | cons branch rest =>
          rw [setAll, ih, List.map_set]
          rfl

theorem mapTop_rename (pass : BranchPass α) {change : OpenContext α → OpenContext α}
    (same : ∀ context, (change context).rename names = change (context.rename names)) :
    (pass.mapTop change).rename names = (pass.rename names).mapTop change := by
  obtain ⟨arena, number, contexts, records⟩ := pass
  cases contexts with
  | nil => rfl
  | cons context outer =>
      unfold mapTop rename
      simp only [List.map_cons, same]

variable [Scalar α]

theorem finishChildren_rename (position : Address) (closing : BranchClosing α)
    (children : List (Branch α)) :
    (finishChildren position closing children).map (Branch.rename names) =
      finishChildren position closing (children.map (Branch.rename names)) := by
  induction children with
  | nil => rfl
  | cons child rest ih =>
      cases rest with
      | nil => rfl
      | cons following rest =>
          rw [finishChildren, List.map_cons, ih]
          rfl

theorem openBranch_rename (pass : BranchPass α) (id : BranchId) (element : Element)
    (opening : BranchOpening α) :
    (pass.openBranch id element opening).rename names =
      (pass.rename names).openBranch (names id) (element.rename names)
        { opening with parentRailId := opening.parentRailId.map names } := by
  have root : ((element.rename names).rootBranchId.getD (names id)) =
      names (element.rootBranchId.getD id) := Option.getD_map ..
  unfold openBranch rename
  simp only [List.map_append, List.map_cons, List.length_map, root]
  rfl

theorem nextRail_rename {pass next : BranchPass α} {id : BranchId} {position : Address}
    {rowY : α → α} {child : Branch α}
    (lowers : pass.nextRail id position rowY = .ok (child, next)) :
    (pass.rename names).nextRail (names id) position rowY =
      .ok (child.rename names, next.rename names) := by
  obtain ⟨arena, number, contexts, records⟩ := pass
  cases contexts with
  | nil => cases lowers
  | cons context outer =>
      have found : (records.map (Branch.rename names))[context.slot]? =
          records[context.slot]?.map (Branch.rename names) := List.getElem?_map
      unfold nextRail at lowers
      unfold nextRail rename
      simp only [List.map_cons, OpenContext.rename, found]
      cases parent : records[context.slot]? with
      | none =>
          simp only [parent] at lowers
          cases lowers
      | some record =>
          simp only [parent] at lowers
          cases lowers
          have grown : Branch.rename names { record with childIds := record.childIds ++ [id] } =
              { record.rename names with
                childIds := (record.rename names).childIds ++ [names id] } := by
            simp only [Branch.rename, List.map_append, List.map_cons, List.map_nil]
          simp only [Option.map_some, List.map_append, List.map_set, List.length_map,
            List.map_cons, grown]
          rfl

theorem closeBranch_rename {pass next : BranchPass α} {id : BranchId} {position : Address}
    {closingOf : OpenContext α → Branch α → BranchClosing α} {branch : Branch α}
    {context : OpenContext α}
    (alike : ∀ context branch, closingOf (context.rename names) (branch.rename names) =
      closingOf context branch)
    (closes : pass.closeBranch id position closingOf = (.ok (branch, context), next)) :
    (pass.rename names).closeBranch (names id) position closingOf =
      (.ok (branch.rename names, context.rename names), next.rename names) := by
  obtain ⟨arena, number, contexts, records⟩ := pass
  cases contexts with
  | nil => cases closes
  | cons innermost outer =>
      have renamed : rename names ⟨arena, number, innermost :: outer, records⟩ =
          ⟨.empty, number, innermost.rename names :: outer.map (OpenContext.rename names),
            records.map (Branch.rename names)⟩ := rfl
      have children : (rename names ⟨arena, number, innermost :: outer, records⟩).childrenOf
          (innermost.rename names) = _ := childrenOf_rename _ innermost
      have found : (records.map (Branch.rename names))[(innermost.rename names).slot]? =
          records[innermost.slot]?.map (Branch.rename names) := List.getElem?_map
      rw [renamed] at children ⊢
      unfold closeBranch at closes ⊢
      simp only [found]
      cases stands : records[innermost.slot]? with
      | none =>
          simp only [stands] at closes
          cases closes
      | some record =>
          simp only [stands] at closes
          by_cases same : record.id = id
          · have sameToo : (record.rename names).id = names id := congrArg names same
            simp only [same, ne_eq, not_true_eq_false, if_false] at closes
            cases closes
            simp only [Option.map_some, sameToo, alike, ne_eq, not_true_eq_false, if_false]
            refine Prod.ext rfl ?_
            dsimp only
            symm
            refine (mapTop_rename _ ?_).trans ?_
            · exact fun _ => rfl
            · unfold rename
              rw [setAll_rename, List.map_set, finishChildren_rename, ← children]
              rfl
          · simp only [same, ne_eq, not_false_eq_true, if_true] at closes
            cases closes

end BranchPass

/-! ### Layouts -/

namespace LayoutState

def rename (names : BranchId → BranchId) (state : LayoutState α) : LayoutState α :=
  { state with
    pass := state.pass.rename names
    mainRail := state.mainRail.rename names
    placed := state.placed.map (LayoutElement.rename names) }

theorem rail_rename (state : LayoutState α) :
    (state.rename names).rail = state.rail.rename names := by
  obtain ⟨⟨arena, number, contexts, records⟩, mainRail, maxRow, rightEdge, placed⟩ := state
  cases contexts <;> rfl

theorem filled_rename (state : LayoutState α) (right : α) :
    (state.rename names).mapRail (fun rail => { rail with lastRight := some right }) =
      (state.mapRail fun rail => { rail with lastRight := some right }).rename names := by
  obtain ⟨⟨arena, number, contexts, records⟩, mainRail, maxRow, rightEdge, placed⟩ := state
  cases contexts <;> rfl

theorem emit_rename (state : LayoutState α) (rungNumber : Address) (element : Element) (x y : α)
    (size : Size α) (railId : Option BranchId) :
    (state.emit rungNumber element x y size railId).rename names =
      (state.rename names).emit rungNumber (element.rename names) x y size (railId.map names) := rfl

variable [Scalar α] {config : LayoutConfig α}

theorem takePlace_rename (state : LayoutState α) (width : α) :
    (state.rename names).takePlace config width =
      ((state.takePlace config width).1, (state.takePlace config width).2.rename names) := by
  obtain ⟨⟨arena, number, contexts, records⟩, mainRail, maxRow, rightEdge, placed⟩ := state
  cases contexts <;> rfl

theorem opened_rename (state : LayoutState α) (id : BranchId) (element : Element)
    (opening : BranchOpening α) (maxRow : α) :
    rename names
        { state with pass := state.pass.openBranch id element opening, maxRow := maxRow } =
      { state.rename names with
        pass := (state.rename names).pass.openBranch (names id) (element.rename names)
          { opening with parentRailId := opening.parentRailId.map names }
        maxRow := maxRow } :=
  congrArg (LayoutState.mk · _ _ _ _) (BranchPass.openBranch_rename state.pass id element opening)

theorem step_rename {input : RungInput α} {state next : LayoutState α} {element : Element}
    (steps : state.step config input element = .ok next) :
    (state.rename names).step config (input.rename names) (element.rename names) =
      .ok (next.rename names) := by
  have draft : (element.rename names).draft = element.draft.rename names := rfl
  unfold step at steps ⊢
  rw [draft]
  cases kind : element.draft with
  | instruction content =>
      rw [kind] at steps
      dsimp only at steps
      obtain rfl := Except.ok.inj steps
      dsimp only [Draft.rename]
      rw [rail_rename, takePlace_rename, emit_rename]
      rfl
  | branchStart id =>
      rw [kind] at steps
      dsimp only at steps
      obtain rfl := Except.ok.inj steps
      dsimp only [Draft.rename]
      rw [rail_rename, takePlace_rename, emit_rename, opened_rename]
      rfl
  | branchNext id =>
      rw [kind] at steps
      dsimp only at steps
      split at steps
      next => cases steps
      next child pass lowers =>
        obtain rfl := Except.ok.inj steps
        have lowersToo : (state.rename names).pass.nextRail (names id) element.position
            ((input.rename names).rowY config) = _ := BranchPass.nextRail_rename lowers
        have position : (element.rename names).position = element.position := rfl
        dsimp only [Draft.rename]
        have row : LayoutState.rail { state.rename names with pass := pass.rename names } =
            (LayoutState.rail { state with pass := pass }).rename names :=
          rail_rename { state with pass := pass }
        rw [position, lowersToo]
        dsimp only
        rw [emit_rename, row]
        rfl
  | branchEnd id =>
      rw [kind] at steps
      dsimp only at steps
      split at steps
      next => cases steps
      next branch context pass closes =>
        obtain rfl := Except.ok.inj steps
        have closesToo : (state.rename names).pass.closeBranch (names id) element.position _ = _ :=
          BranchPass.closeBranch_rename (fun _ _ => rfl) closes
        have position : (element.rename names).position = element.position := rfl
        have rowY : (input.rename names).rowY config = input.rowY config := rfl
        have closed : LayoutState.mk (pass.rename names) (state.rename names).mainRail
            (state.rename names).maxRow (state.rename names).rightEdge (state.rename names).placed =
              LayoutState.rename names { state with pass := pass } := rfl
        dsimp only [Draft.rename]
        rw [position, rowY, closesToo]
        dsimp only
        -- The end marker goes to the rail that is current once its branch is closed.
        rw [closed, filled_rename, rail_rename, emit_rename]
        rfl

theorem run_rename {input : RungInput α} {state final : LayoutState α} {elements : List Element}
    (runs : state.run config input elements = .ok final) :
    (state.rename names).run config (input.rename names) (elements.map (Element.rename names)) =
      .ok (final.rename names) := by
  induction elements generalizing state with
  | nil =>
      cases runs
      rfl
  | cons element rest ih =>
      rw [run] at runs
      split at runs
      next => cases runs
      next next steps =>
        rw [List.map_cons, run, step_rename steps]
        exact ih runs

theorem result_rename {input : RungInput α} (state : LayoutState α) (branches : List (Branch α)) :
    (state.result config input branches).rename names =
      (state.rename names).result config (input.rename names)
        (branches.map (Branch.rename names)) := by
  unfold result LayoutResult.rename
  simp only [rename, List.map_reverse, List.foldl_map]
  rfl

end LayoutState

/-- The layout of a rung with other handles is its layout with other handles. -/
theorem LayoutResult.IsOf.rename_eq [Scalar α] {config : LayoutConfig α} {input : RungInput α}
    {layout other : LayoutResult α} (isOf : layout.IsOf config input)
    (otherIsOf : other.IsOf config (input.rename names)) : other = layout.rename names := by
  obtain ⟨final, runs, rfl⟩ := isOf.exists_run
  obtain ⟨otherFinal, otherRuns, rfl⟩ := otherIsOf.exists_run
  have runsToo : (LayoutState.start config .empty (input.rename names)).run config
      (input.rename names) (input.rename names).elements = .ok (final.rename names) :=
    LayoutState.run_rename runs
  obtain rfl := Except.ok.inj (otherRuns.symm.trans runsToo)
  exact (LayoutState.result_rename final final.pass.records).symm

end LadderDiagram
