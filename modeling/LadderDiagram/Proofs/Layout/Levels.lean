import LadderDiagram.Proofs.Layout.Comparison
import LadderDiagram.Proofs.Layout.Measures

/-!
# Levels of a layout

Instructions take no row of their own.  Each stands at the height of its rail, and two layouts
of which one has an instruction more have the same profile without it: all heights, all rows
and all records are the same but for widths and positions.  Under a valid configuration an
instruction that is put in pushes what is behind it to the right, and nothing to the left.
-/

namespace LadderDiagram

/-! ### The heights of rails -/

section Rails

variable {α : Type}

/-- The handles of rails with the heights of their records. -/
def railHeights (records : List (Branch α)) : List (BranchId × α) :=
  records.map fun record => (record.id, record.branchY)

/-- A record that keeps its handle and its height makes no difference to the rails. -/
theorem railHeights_set {records : List (Branch α)} {slot : Nat} {old new : Branch α}
    (found : records[slot]? = some old) (sameId : new.id = old.id)
    (sameY : new.branchY = old.branchY) :
    railHeights (records.set slot new) = railHeights records := by
  unfold railHeights
  rw [List.map_set, sameId, sameY]
  refine set_of_getElem? ?_
  rw [List.getElem?_map, found, Option.map_some]

theorem railHeights_concat (records : List (Branch α)) (record : Branch α) :
    railHeights (records ++ [record]) = railHeights records ++ [(record.id, record.branchY)] :=
  List.map_append

variable [Scalar α] {config : LayoutConfig α} {input : RungInput α}
  {heights more : List (BranchId × α)}

/-- A height at which a rail stands; the main rail is on the first row. -/
def IsHeight (config : LayoutConfig α) (input : RungInput α) (heights : List (BranchId × α))
    (rail : Option BranchId) (y : α) : Prop :=
  rail = none ∧ y = input.rowY config (Scalar.ofNat 0) ∨ ∃ id, rail = some id ∧ (id, y) ∈ heights

theorem IsHeight.append {rail : Option BranchId} {y : α}
    (isHeight : IsHeight config input heights rail y) :
    IsHeight config input (heights ++ more) rail y :=
  isHeight.imp_right fun ⟨id, isRail, member⟩ => ⟨id, isRail, List.mem_append_left _ member⟩

/-- A rail stands at one height, if its handle is told from the others. -/
theorem IsHeight.unique {rail : Option BranchId} {y other : α}
    (distinct : (heights.map Prod.fst).Nodup) (isHeight : IsHeight config input heights rail y)
    (isHeightToo : IsHeight config input heights rail other) : other = y := by
  rcases isHeight with ⟨rfl, rfl⟩ | ⟨id, rfl, member⟩ <;>
    rcases isHeightToo with ⟨isMain, rfl⟩ | ⟨own, isOwn, memberToo⟩
  · rfl
  · cases isOwn
  · cases isMain
  · cases isOwn
    exact congrArg Prod.snd (List.inj_on_of_nodup_map distinct memberToo member rfl)

/-- An open branch whose current rail stands at its height. -/
structure OpenContext.IsLevel (config : LayoutConfig α) (input : RungInput α)
    (heights : List (BranchId × α)) (context : OpenContext α) : Prop where
  isHeight : IsHeight config input heights context.rail.railId
    (input.rowY config context.rail.row)
  bounded : ∀ slot ∈ context.children, slot < heights.length

theorem OpenContext.IsLevel.append {context : OpenContext α}
    (level : context.IsLevel config input heights) :
    context.IsLevel config input (heights ++ more) :=
  ⟨level.isHeight.append, fun slot isChild => (level.bounded slot isChild).trans_le
    (List.length_append ▸ Nat.le_add_right _ _)⟩

/-- All cursors of a layout, and all instructions that it has placed, are on their rails. -/
structure LayoutState.IsLevel (config : LayoutConfig α) (input : RungInput α)
    (heights : List (BranchId × α)) (state : LayoutState α) : Prop where
  heights_eq : railHeights state.pass.records = heights
  contexts : ∀ context ∈ state.pass.contexts, context.IsLevel config input heights
  main : IsHeight config input heights state.mainRail.railId
    (input.rowY config state.mainRail.row)
  placed : ∀ placed ∈ state.placed, ∀ content, placed.element.draft = .instruction content →
    IsHeight config input heights placed.railId placed.y

namespace LayoutState.IsLevel

variable {state : LayoutState α} (level : state.IsLevel config input heights)
include level

theorem rail : IsHeight config input heights state.rail.railId
    (input.rowY config state.rail.row) := by
  obtain ⟨⟨arena, number, contexts, records⟩, mainRail, maxRow, rightEdge, placed⟩ := state
  cases contexts with
  | nil => exact level.main
  | cons context outer => exact (level.contexts context List.mem_cons_self).isHeight

/-- A rail that is filled stays where it is. -/
theorem filled (right : α) :
    (state.mapRail fun rail => { rail with lastRight := some right }).IsLevel config input
      heights := by
  obtain ⟨⟨arena, number, contexts, records⟩, mainRail, maxRow, rightEdge, placed⟩ := state
  cases contexts with
  | nil => exact { level with }
  | cons context outer =>
      obtain ⟨own, others⟩ := List.forall_mem_cons.mp level.contexts
      exact { level with contexts := List.forall_mem_cons.mpr ⟨{ own with }, others⟩ }

theorem takePlace (width : α) :
    (state.takePlace config width).2.IsLevel config input heights := by
  obtain ⟨⟨arena, number, contexts, records⟩, mainRail, maxRow, rightEdge, placed⟩ := state
  cases contexts with
  | nil => exact { level with }
  | cons context outer =>
      obtain ⟨own, others⟩ := List.forall_mem_cons.mp level.contexts
      exact { level with contexts := List.forall_mem_cons.mpr ⟨{ own with }, others⟩ }

theorem within (maxRow rightEdge : α) :
    IsLevel config input heights { state with maxRow := maxRow, rightEdge := rightEdge } :=
  ⟨level.heights_eq, level.contexts, level.main, level.placed⟩

/-- Markers may be placed anywhere; an instruction is on its rail. -/
theorem emit {rungNumber : Address} {element : Element} {x y : α} {size : Size α}
    {rail : Option BranchId} (stands : ∀ content, element.draft = .instruction content →
      IsHeight config input heights rail y) :
    (state.emit rungNumber element x y size rail).IsLevel config input heights :=
  { level with placed := List.forall_mem_cons.mpr ⟨stands, level.placed⟩ }

/-- What an opened branch adds to the rails. -/
theorem opened (id : BranchId) (element : Element) {opening : BranchOpening α}
    (isRow : opening.rowY = input.rowY config opening.row) (maxRow : α) :
    IsLevel config input (heights ++ [(id, opening.rowY)])
      { state with pass := state.pass.openBranch id element opening, maxRow := maxRow } := by
  refine ⟨?_, List.forall_mem_cons.mpr ⟨⟨?_, ?_⟩, ?_⟩, level.main.append, ?_⟩
  · rw [← level.heights_eq]
    exact railHeights_concat _ _
  · rw [isRow]
    exact Or.inr ⟨id, rfl, List.mem_append_right _ (List.mem_singleton_self _)⟩
  · exact fun slot none => absurd none List.not_mem_nil
  · exact fun context member => (level.contexts context member).append
  · exact fun placed member content holds => (level.placed placed member content holds).append

/-- What a further rail adds to the rails. -/
theorem lowered {pass : BranchPass α} {child : Branch α} {id : BranchId} {position : Address}
    (lowers : state.pass.nextRail id position (input.rowY config) = .ok (child, pass)) :
    ∃ y, IsLevel config input (heights ++ [(id, y)]) { state with pass := pass } := by
  obtain ⟨⟨arena, number, contexts, records⟩, mainRail, maxRow, rightEdge, placed⟩ := state
  cases contexts with
  | nil => cases lowers
  | cons context outer =>
      unfold BranchPass.nextRail at lowers
      dsimp only at lowers
      cases found : records[context.slot]? with
      | none =>
          rw [found] at lowers
          cases lowers
      | some parent =>
          rw [found] at lowers
          cases lowers
          obtain ⟨own, others⟩ := List.forall_mem_cons.mp level.contexts
          have count : heights.length = records.length := by
            rw [← level.heights_eq, railHeights, List.length_map]
          refine ⟨input.rowY config (context.maxRow + Scalar.ofNat 1), ?_,
            List.forall_mem_cons.mpr ⟨⟨?_, ?_⟩, ?_⟩, level.main.append, ?_⟩
          · refine (railHeights_concat _ _).trans (congrArg (· ++ _) ?_)
            refine Eq.trans (railHeights_set found ?_ ?_) level.heights_eq <;> rfl
          · exact Or.inr ⟨id, rfl, List.mem_append_right _ (List.mem_singleton_self _)⟩
          · intro slot isChild
            rw [List.length_append, List.length_singleton]
            rcases List.mem_append.mp isChild with known | new
            · exact Nat.lt_succ_of_lt (own.bounded slot known)
            · rw [List.mem_singleton.mp new, count]
              exact Nat.lt_succ_self _
          · exact fun context member => (others context member).append
          · exact fun placed member content holds =>
              (level.placed placed member content holds).append

/-- A branch that is closed keeps the heights of its rails. -/
theorem closed {pass : BranchPass α} {branch : Branch α} {context : OpenContext α}
    {id : BranchId} {position : Address}
    {closingOf : OpenContext α → Branch α → BranchClosing α}
    (closes : state.pass.closeBranch id position closingOf = (.ok (branch, context), pass)) :
    IsLevel config input heights { state with pass := pass } := by
  obtain ⟨⟨arena, number, contexts, records⟩, mainRail, maxRow, rightEdge, placed⟩ := state
  cases contexts with
  | nil => cases closes
  | cons innermost outer =>
      unfold BranchPass.closeBranch at closes
      dsimp only at closes
      cases found : records[innermost.slot]? with
      | none =>
          rw [found] at closes
          cases closes
      | some record =>
          rw [found] at closes
          dsimp only at closes
          by_cases isOwn : record.id = id
          · rw [if_neg (not_not.mpr isOwn)] at closes
            cases closes
            obtain ⟨own, others⟩ := List.forall_mem_cons.mp level.contexts
            have count : heights.length = records.length := by
              rw [← level.heights_eq, railHeights, List.length_map]
            let behind : BranchPass α := ⟨arena, number, outer, records⟩
            have inside : ∀ slot ∈ context.children, slot < behind.records.length :=
              fun slot isChild => count ▸ own.bounded slot isChild
            have unchanged := (BranchPass.map_closed
              (fun record => (record.id, record.branchY)) (fun _ _ _ _ => rfl) inside found
              position (closingOf context record)).trans level.heights_eq
            cases outer with
            | nil => exact { level with heights_eq := unchanged, contexts := others }
            | cons parent further =>
                obtain ⟨next, others⟩ := List.forall_mem_cons.mp others
                exact { level with
                  heights_eq := unchanged
                  contexts := List.forall_mem_cons.mpr ⟨{ next with }, others⟩ }
          · rw [if_pos isOwn] at closes
            cases closes

/-- A step knows at most one rail more. -/
theorem step {next : LayoutState α} {element : Element}
    (steps : state.step config input element = .ok next) :
    ∃ added, next.IsLevel config input (heights ++ added) := by
  unfold LayoutState.step at steps
  cases kind : element.draft with
  | instruction content =>
      rw [kind] at steps
      cases steps
      refine ⟨[], ?_⟩
      rw [List.append_nil]
      exact (level.takePlace _).emit fun _ _ => level.rail
  | branchStart id =>
      rw [kind] at steps
      cases steps
      exact ⟨_, ((level.takePlace _).opened id element rfl _).emit fun content holds => by
        cases kind.symm.trans holds⟩
  | branchNext id =>
      rw [kind] at steps
      dsimp only at steps
      split at steps
      next => cases steps
      next child pass lowers =>
        cases steps
        obtain ⟨y, lowered⟩ := level.lowered lowers
        exact ⟨_, (lowered.within _ _).emit fun content holds => by
          cases kind.symm.trans holds⟩
  | branchEnd id =>
      rw [kind] at steps
      dsimp only at steps
      split at steps
      next => cases steps
      next branch context pass closes =>
        cases steps
        refine ⟨[], ?_⟩
        rw [List.append_nil]
        exact (((level.closed closes).filled _).within _ _).emit fun content holds => by
          cases kind.symm.trans holds

theorem run {final : LayoutState α} {elements : List Element}
    (runs : state.run config input elements = .ok final) :
    ∃ added, final.IsLevel config input (heights ++ added) := by
  induction elements generalizing state heights with
  | nil =>
      cases runs
      exact ⟨[], (List.append_nil heights).symm ▸ level⟩
  | cons element rest ih =>
      obtain ⟨next, steps, runs⟩ := run_cons_eq_ok_iff.mp runs
      obtain ⟨first, levelNext⟩ := level.step steps
      obtain ⟨others, levelFinal⟩ := ih levelNext runs
      exact ⟨first ++ others, (List.append_assoc heights first others) ▸ levelFinal⟩

end LayoutState.IsLevel

/-- Every instruction stands at the height of its rail. -/
theorem LayoutResult.IsOf.isHeight {layout : LayoutResult α} (isOf : layout.IsOf config input)
    {placed : LayoutElement α} (member : placed ∈ layout.elements) {content : Instruction}
    (holds : placed.element.draft = .instruction content) :
    IsHeight config input (railHeights layout.branches) placed.railId placed.y := by
  obtain ⟨final, runs, rfl⟩ := isOf.exists_run
  have start : LayoutState.IsLevel config input [] (LayoutState.start config .empty input) :=
    ⟨rfl, fun _ none => absurd none List.not_mem_nil, Or.inl ⟨rfl, rfl⟩,
      fun _ none => absurd none List.not_mem_nil⟩
  obtain ⟨heights, level⟩ := start.run runs
  have isHeight := level.placed placed (List.mem_reverse.mp member) content holds
  rw [← level.heights_eq] at isHeight
  exact isHeight

end Rails

/-! ### Profiles -/

section Profiles

variable {α : Type} [Scalar α] {config : LayoutConfig α} {input : RungInput α}

/-- An element but for its position and its place along the rail. -/
def LayoutElement.profile (placed : LayoutElement α) : LayoutElement α :=
  { placed with element := placed.element.unplaced, x := Scalar.ofNat 0 }

/-- A record but for its positions and its bounds along the rail. -/
def Branch.profile (record : Branch α) : Branch α :=
  { record with
    startPosition := .ofNat 0
    endPosition := .ofNat 0
    startX := Scalar.ofNat 0
    endX := Scalar.ofNat 0 }

/-- A layout but for its widths and for the order of positions: all heights and rows, and what
stands there. -/
def LayoutResult.profile (layout : LayoutResult α) : LayoutResult α :=
  { layout with
    rightEdge := Scalar.ofNat 0
    rightRailX := Scalar.ofNat 0
    elements := layout.elements.map LayoutElement.profile
    branches := layout.branches.map Branch.profile }

/-- A layout without the element at a place, if a place is named. -/
def LayoutResult.without (layout : LayoutResult α) (place : Option Nat) : LayoutResult α :=
  { layout with elements := place.elim layout.elements layout.elements.eraseIdx }

/-- Numbers and positions of two layouts that have the same heights. -/
def Comparison.upright (α : Type) [Scalar α] : Comparison α where
  across _ _ := True
  down value other := other = value
  place _ _ := True
  across_refl _ := trivial
  across_add _ _ := trivial
  across_max _ _ := trivial
  down_add same height := congrArg (· + height) same
  down_sub same height := congrArg (· - height) same
  place_previous _ := trivial

theorem Comparison.upright_widens (config : LayoutConfig α) :
    (Comparison.upright α).Widens config :=
  ⟨fun _ _ _ _ => trivial, fun _ _ => trivial⟩

theorem LayoutElement.Compares.profile_eq {placed other : LayoutElement α}
    (same : placed.Compares (.upright α) other) : other.profile = placed.profile := by
  cases placed
  cases other
  simp only [LayoutElement.profile, LayoutElement.mk.injEq]
  exact ⟨same.element.unplaced_eq, trivial, same.y, same.width_eq, same.height_eq,
    same.rungNumber_eq, same.railId_eq, same.selected_eq⟩

theorem Branch.Compares.profile_eq {record other : Branch α}
    (same : record.Compares (.upright α) other) : other.profile = record.profile := by
  cases record
  cases other
  simp only [Branch.profile, Branch.mk.injEq]
  exact ⟨same.id_eq, same.rungNumber_eq, same.parentId_eq, same.childIds_eq, same.rootId_eq,
    trivial, trivial, same.branchLevel_eq, trivial, trivial, same.branchY, same.startY, same.endY⟩

/-- A sequence that is another one but for an instruction at a place, if a place is named. -/
inductive HoldsBesides (base : List Element) : Option Nat → List Element → Prop
  | nothing : HoldsBesides base none base
  | instruction {elements : List Element} {place : Nat} {element : Element}
      {content : Instruction} (found : elements[place]? = some element)
      (holds : element.draft = .instruction content)
      (others : (elements.eraseIdx place).map Element.unplaced = base.map Element.unplaced) :
      HoldsBesides base (some place) elements

/-- What is left of a sequence when an instruction is taken out. -/
theorem holdsBesides_of_eraseIdx {source : List Draft} {elements base : List Element}
    {place : Nat} {content : Instruction} (annotates : annotate source = .ok elements)
    (found : source[place]? = some (.instruction content))
    (annotatesBase : annotate (source.eraseIdx place) = .ok base) :
    HoldsBesides base (some place) elements := by
  have stands := found
  rw [← drafts_of_annotate annotates, drafts_getElem?] at stands
  obtain ⟨element, isElement, holds⟩ := Option.map_eq_some_iff.mp stands
  refine .instruction isElement holds ?_
  rw [← List.eraseIdx_map, unplaced_of_annotate annotates, unplaced_of_annotate annotatesBase,
    unplacedWithin_eraseIdx found]

variable {base elements : List Element} {place gone come : Option Nat}
  {layout other : LayoutResult α}

/-- Elements that are the same but for their positions compare if positions do not count. -/
theorem forall₂_compares_of_unplaced {compared : Comparison α}
    (places : ∀ position other, compared.place position other)
    (same : elements.map Element.unplaced = base.map Element.unplaced) :
    List.Forall₂ (Element.Compares compared) base elements := by
  have equal : List.Forall₂ Eq (base.map Element.unplaced) (elements.map Element.unplaced) := by
    rw [same]
    exact List.forall₂_same.mpr fun _ _ => rfl
  have alike := List.forall₂_map_left_iff.mp (List.forall₂_map_right_iff.mp equal)
  exact alike.imp fun element other unplaced => ⟨unplaced.symm, places _ _⟩

theorem LayoutResult.Compares.profile_without {place : Nat}
    (same : layout.Compares (.upright α) other)
    (placed : List.Forall₂ (LayoutElement.Compares (.upright α)) layout.elements
      (other.elements.eraseIdx place)) :
    (other.without (some place)).profile = layout.profile := by
  have elements : (other.elements.eraseIdx place).map LayoutElement.profile =
      layout.elements.map LayoutElement.profile :=
    map_eq_map_of_forall₂ placed fun same => same.profile_eq
  have branches : other.branches.map Branch.profile = layout.branches.map Branch.profile :=
    map_eq_map_of_forall₂ same.branches fun same => same.profile_eq
  cases layout
  cases other
  simp only [without, profile, Option.elim_some, LayoutResult.mk.injEq]
  exact ⟨same.rungNumber_eq, same.y, same.height_eq, same.commentHeight_eq, same.rowCount_eq,
    same.maxBranchDepth_eq, trivial, trivial, elements, branches⟩

/-- Without its instruction a sequence has the profile of the other one. -/
theorem HoldsBesides.profile_without (besides : HoldsBesides base place input.elements)
    (isOf : layout.IsOf config input)
    (baseIsOf : other.IsOf config { input with elements := base }) :
    (layout.without place).profile = other.profile := by
  obtain ⟨number, y, elements, lines⟩ := input
  cases besides with
  | nothing => exact congrArg LayoutResult.profile (isOf.unique baseIsOf)
  | instruction found holds others =>
      obtain ⟨compares, placed⟩ := baseIsOf.compares_inserted isOf ⟨rfl, rfl, rfl⟩
        (Comparison.upright_widens config) found holds
        (forall₂_compares_of_unplaced (fun _ _ => trivial) others)
      exact compares.profile_without placed

/-- Two sequences that are alike without their instructions have one profile without them. -/
theorem profile_without_eq (besides : HoldsBesides base gone input.elements)
    (besidesToo : HoldsBesides base come elements) (nested : WellNested (drafts base))
    (isOf : layout.IsOf config input)
    (otherIsOf : other.IsOf config { input with elements := elements }) :
    (other.without come).profile = (layout.without gone).profile := by
  obtain ⟨own, ownIsOf⟩ := exists_isOf config { input with elements := base } nested
  exact (HoldsBesides.profile_without besidesToo otherIsOf ownIsOf).trans
    (besides.profile_without isOf ownIsOf).symm

/-- Instructions on one rail of two layouts of one profile stand at one height. -/
theorem LayoutResult.IsOf.y_eq_of_rail (isOf : layout.IsOf config input)
    (nested : WellNested (drafts input.elements))
    (otherIsOf : other.IsOf config { input with elements := elements })
    (profile : (other.without come).profile = (layout.without gone).profile)
    {old new : LayoutElement α} (isOld : old ∈ layout.elements) (isNew : new ∈ other.elements)
    {content contentToo : Instruction} (holds : old.element.draft = .instruction content)
    (holdsToo : new.element.draft = .instruction contentToo) (sameRail : new.railId = old.railId) :
    new.y = old.y := by
  have records : other.branches.map Branch.profile = layout.branches.map Branch.profile :=
    congrArg LayoutResult.branches profile
  have heights : railHeights other.branches = railHeights layout.branches := by
    have read := congrArg railHeights records
    unfold railHeights at read ⊢
    rwa [List.map_map, List.map_map] at read
  have distinct : ((railHeights layout.branches).map Prod.fst).Nodup := by
    have ids : (railHeights layout.branches).map Prod.fst = layout.branches.map (·.id) :=
      List.map_map
    rw [ids, isOf.ids_eq]
    exact nested.distinct
  have own := otherIsOf.isHeight isNew holdsToo
  rw [heights, sameRail] at own
  exact (isOf.isHeight isOld holds).unique distinct own

end Profiles

/-! ### What stands in front -/

section Fronts

variable {α : Type} [Scalar α] {config : LayoutConfig α} {input : RungInput α}

/-- A step places one element. -/
theorem LayoutState.exists_placed_of_step {state next : LayoutState α} {element : Element}
    (steps : state.step config input element = .ok next) :
    ∃ placed : LayoutElement α, next.placed = placed :: state.placed := by
  unfold step at steps
  cases kind : element.draft with
  | instruction content =>
      rw [kind] at steps
      cases steps
      exact ⟨_, congrArg _ (placed_takePlace _ _)⟩
  | branchStart id =>
      rw [kind] at steps
      cases steps
      exact ⟨_, congrArg _ (placed_takePlace _ _)⟩
  | branchNext id =>
      rw [kind] at steps
      dsimp only at steps
      split at steps
      next => cases steps
      next =>
        cases steps
        exact ⟨_, rfl⟩
  | branchEnd id =>
      rw [kind] at steps
      dsimp only at steps
      split at steps
      next => cases steps
      next =>
        cases steps
        exact ⟨_, congrArg _ (placed_mapRail _ _)⟩

/-- A pass places its elements in their order behind those before. -/
theorem LayoutState.exists_placed_of_run {state final : LayoutState α} {elements : List Element}
    (runs : state.run config input elements = .ok final) :
    ∃ placed : List (LayoutElement α), placed.length = elements.length ∧
      final.placed.reverse = state.placed.reverse ++ placed := by
  induction elements generalizing state with
  | nil =>
      cases runs
      exact ⟨[], rfl, (List.append_nil _).symm⟩
  | cons element rest ih =>
      obtain ⟨next, steps, runs⟩ := run_cons_eq_ok_iff.mp runs
      obtain ⟨own, new⟩ := exists_placed_of_step steps
      obtain ⟨others, count, behind⟩ := ih runs
      refine ⟨own :: others, congrArg (· + 1) count, ?_⟩
      rw [behind, new, List.reverse_cons, List.append_assoc]
      rfl

/-- A pass does not look at elements that it does not meet. -/
theorem LayoutState.run_withElements (others : List Element) (state : LayoutState α)
    (elements : List Element) :
    state.run config { input with elements := others } elements =
      state.run config input elements := by
  induction elements generalizing state with
  | nil => rfl
  | cons element rest ih =>
      rw [run, run]
      have same : state.step config { input with elements := others } element =
          state.step config input element := rfl
      rw [same]
      cases state.step config input element with
      | error error => rfl
      | ok next => exact ih next

/-- What is drawn of the first elements of a rung is what the pass over them has placed. -/
theorem LayoutResult.IsOf.exists_front {layout : LayoutResult α} (isOf : layout.IsOf config input)
    {place : Nat} (within : place ≤ input.elements.length) :
    ∃ before : LayoutState α, (LayoutState.start config .empty input).run config input
        (input.elements.take place) = .ok before ∧
      layout.elements.take place = before.placed.reverse := by
  obtain ⟨final, runs, rfl⟩ := isOf.exists_run
  rw [← List.take_append_drop place input.elements] at runs
  obtain ⟨before, front, back⟩ := LayoutState.run_append_eq_ok_iff.mp runs
  obtain ⟨placed, count, isFront⟩ := LayoutState.exists_placed_of_run front
  obtain ⟨others, _, total⟩ := LayoutState.exists_placed_of_run back
  have length : before.placed.reverse.length = place := by
    have none : (LayoutState.start config .empty input).placed.reverse = [] := rfl
    rw [isFront, none, List.nil_append, count, List.length_take_of_le within]
  refine ⟨before, front, ?_⟩
  change final.placed.reverse.take place = _
  rw [total, List.take_left' length]

/-- Where two sequences begin alike, they are drawn alike. -/
theorem LayoutResult.IsOf.take_elements {layout other : LayoutResult α} {elements : List Element}
    (isOf : layout.IsOf config input)
    (otherIsOf : other.IsOf config { input with elements := elements }) {place : Nat}
    (within : place ≤ input.elements.length) (withinToo : place ≤ elements.length)
    (same : elements.take place = input.elements.take place) :
    other.elements.take place = layout.elements.take place := by
  obtain ⟨before, front, isFront⟩ := isOf.exists_front within
  obtain ⟨beforeToo, frontToo, isFrontToo⟩ := otherIsOf.exists_front withinToo
  dsimp only at frontToo
  rw [LayoutState.run_withElements, same] at frontToo
  obtain rfl := Except.ok.inj (frontToo.symm.trans front)
  rw [isFront, isFrontToo]

end Fronts

/-! ### To the right -/

section Rightward

variable {config : LayoutConfig Rat} {input : RungInput Rat} {layout other : LayoutResult Rat}

/-- Widths and places of two layouts of which the second one is further to the right. -/
def Comparison.rightward : Comparison Rat where
  across value other := value ≤ other
  down _ _ := True
  place _ _ := True
  across_refl := le_refl
  across_add atMost width := add_le_add_left atMost width
  across_max atMost more := by
    rw [Scalar.max_rat, Scalar.max_rat]
    exact max_le_max atMost more
  down_add _ _ := trivial
  down_sub _ _ := trivial
  place_previous _ := trivial

/-- No valid measure takes anything back to the left. -/
theorem Comparison.rightward_widens (rules : config.KeepsRules) :
    Comparison.rightward.Widens config := by
  refine ⟨fun category value other atMost => ?_, fun {value other} more atMost => ?_⟩
  · change value ≤ other + _ + _ + _
    have width := (rules.element category).width
    have spacing : 0 ≤ config.elementSpacing := rules.nonneg .elementSpacing
    have wire : 0 ≤ config.minimumWireLength := rules.nonneg .minimumWireLength
    change value ≤ other at atMost
    linarith
  · rw [Scalar.max_rat]
    exact le_max_of_le_left atMost

/-- A layout with one element more, behind which everything is further to the right or where it
was. -/
structure PushesRight (layout other : LayoutResult Rat) (place : Nat) : Prop where
  elements : List.Forall₂ (fun placed pushed : LayoutElement Rat => placed.x ≤ pushed.x)
    layout.elements (other.elements.eraseIdx place)
  branches : List.Forall₂ (fun record pushed : Branch Rat =>
    record.startX ≤ pushed.startX ∧ record.endX ≤ pushed.endX) layout.branches other.branches
  rightEdge : layout.rightEdge ≤ other.rightEdge
  rightRailX : layout.rightRailX ≤ other.rightRailX

/-- An instruction that is put in pushes to the right. -/
theorem HoldsBesides.pushesRight {elements : List Element} {place : Nat}
    (besides : HoldsBesides input.elements (some place) elements) (rules : config.KeepsRules)
    (isOf : layout.IsOf config input)
    (otherIsOf : other.IsOf config { input with elements := elements }) :
    PushesRight layout other place := by
  cases besides with
  | instruction found holds others =>
      have inputs : input.Compares .rightward { input with elements := elements } :=
        ⟨rfl, rfl, trivial⟩
      obtain ⟨compares, placed⟩ := isOf.compares_inserted otherIsOf inputs
        (Comparison.rightward_widens rules) found holds
        (forall₂_compares_of_unplaced (fun _ _ => trivial) others)
      exact ⟨placed.imp fun _ _ same => same.x,
        compares.branches.imp fun _ _ same => ⟨same.startX, same.endX⟩, compares.rightEdge,
        compares.rightRailX⟩

end Rightward

end LadderDiagram
