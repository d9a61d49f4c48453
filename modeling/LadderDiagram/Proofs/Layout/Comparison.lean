import LadderDiagram.Proofs.Layout.Engine
import LadderDiagram.Proofs.Sequence.Surroundings
import Mathlib.Data.List.Forall2

/-!
# Layouts compared

Two layouts of one sequence under one configuration are made by the same steps.  Rows are
counted from the markers alone, so they are the same in both; widths only add up and have the
greater one taken, and heights begin at the row of a rail.  So whatever relation holds between
the numbers with which two passes begin holds between all numbers that they write, if addition
and maximum keep it.  The relations are parameters here: heights may differ by a constant, and
widths may be equal, in order, or anything.

An instruction that only one of the two passes meets moves on the rail that is current and
nothing else.  Where the relation allows for that, the two passes still compare behind it.
-/

namespace LadderDiagram

/-- Relations between the numbers and positions of two layouts, which all steps keep. -/
structure Comparison (α : Type) [Scalar α] where
  /-- Between widths and places along a rail. -/
  across : α → α → Prop
  /-- Between heights. -/
  down : α → α → Prop
  /-- Between positions. -/
  place : Address → Address → Prop
  across_refl : ∀ value, across value value
  across_add : ∀ {value other}, across value other → ∀ width, across (value + width) (other + width)
  across_max : ∀ {value other more moreToo}, across value other → across more moreToo →
    across (Scalar.max value more) (Scalar.max other moreToo)
  down_add : ∀ {value other}, down value other → ∀ height, down (value + height) (other + height)
  down_sub : ∀ {value other}, down value other → ∀ height, down (value - height) (other - height)
  place_previous : ∀ {position other}, place position other → place position.previous other.previous

variable {α : Type} [Scalar α]

/-- Whether the rails of the second layout may hold more than those of the first one. -/
structure Comparison.Widens (compared : Comparison α) (config : LayoutConfig α) : Prop where
  behind : ∀ (category : Category) {value other : α}, compared.across value other →
    compared.across value (other + (config.sizeOf category).width + config.elementSpacing +
      config.minimumWireLength)
  max : ∀ {value other : α} (more : α), compared.across value other →
    compared.across value (Scalar.max other more)

/-- Elements that differ in their positions only, as far as the comparison allows for it. -/
structure Element.Compares (compared : Comparison α) (element other : Element) : Prop where
  unplaced_eq : other.unplaced = element.unplaced
  place : compared.place element.position other.position

/-- Records of one marker with numbers that compare. -/
structure Branch.Compares (compared : Comparison α) (record other : Branch α) : Prop where
  id_eq : other.id = record.id
  rungNumber_eq : other.rungNumber = record.rungNumber
  parentId_eq : other.parentId = record.parentId
  childIds_eq : other.childIds = record.childIds
  rootId_eq : other.rootId = record.rootId
  branchLevel_eq : other.branchLevel = record.branchLevel
  start : compared.place record.startPosition other.startPosition
  finish : compared.place record.endPosition other.endPosition
  startX : compared.across record.startX other.startX
  endX : compared.across record.endX other.endX
  branchY : compared.down record.branchY other.branchY
  startY : compared.down record.startY other.startY
  endY : compared.down record.endY other.endY

/-- Elements of one kind and size that stand where the comparison allows for. -/
structure LayoutElement.Compares (compared : Comparison α) (placed other : LayoutElement α) :
    Prop where
  element : placed.element.Compares compared other.element
  x : compared.across placed.x other.x
  y : compared.down placed.y other.y
  width_eq : other.width = placed.width
  height_eq : other.height = placed.height
  rungNumber_eq : other.rungNumber = placed.rungNumber
  railId_eq : other.railId = placed.railId
  selected_eq : other.selected = placed.selected

structure RungInput.Compares (compared : Comparison α) (input other : RungInput α) : Prop where
  rungNumber_eq : other.rungNumber = input.rungNumber
  commentLines_eq : other.commentLines = input.commentLines
  y : compared.down input.y other.y

/-- Cursors of one rail; what stands on it next takes places that compare. -/
structure RailCursor.Compares (compared : Comparison α) (config : LayoutConfig α)
    (cursor other : RailCursor α) : Prop where
  railId_eq : other.railId = cursor.railId
  row_eq : other.row = cursor.row
  next : compared.across (LayoutState.nextX config cursor) (LayoutState.nextX config other)

structure OpenContext.Compares (compared : Comparison α) (config : LayoutConfig α)
    (context other : OpenContext α) : Prop where
  slot_eq : other.slot = context.slot
  rail : context.rail.Compares compared config other.rail
  children_eq : other.children = context.children
  maxRight : compared.across context.maxRight other.maxRight
  maxRow_eq : other.maxRow = context.maxRow

/-- Passes that have met the same markers; the arena, into which no pass looks, is left out. -/
structure BranchPass.Compares (compared : Comparison α) (config : LayoutConfig α)
    (pass other : BranchPass α) : Prop where
  contexts : List.Forall₂ (OpenContext.Compares compared config) pass.contexts other.contexts
  records : List.Forall₂ (Branch.Compares compared) pass.records other.records

/-- Layouts that have met the same markers, whatever they have placed. -/
structure LayoutState.Compares (compared : Comparison α) (config : LayoutConfig α)
    (state other : LayoutState α) : Prop where
  pass : state.pass.Compares compared config other.pass
  mainRail : state.mainRail.Compares compared config other.mainRail
  maxRow_eq : other.maxRow = state.maxRow
  rightEdge : compared.across state.rightEdge other.rightEdge

section Lists

variable {β γ : Type} {related : β → γ → Prop} {items : List β} {others : List γ}

theorem rel_getElem? (alike : List.Forall₂ related items others) (place : Nat) :
    Option.Rel related items[place]? others[place]? := by
  induction alike generalizing place with
  | nil => exact .none
  | cons first rest ih =>
      cases place with
      | zero => exact .some first
      | succ place => exact ih place

theorem exists_getElem?_of_forall₂ (alike : List.Forall₂ related items others) {place : Nat}
    {item : β} (found : items[place]? = some item) :
    ∃ other, others[place]? = some other ∧ related item other := by
  have rel := rel_getElem? alike place
  rw [found] at rel
  generalize others[place]? = entry at rel
  cases rel with
  | some same => exact ⟨_, rfl, same⟩

theorem forall₂_set (alike : List.Forall₂ related items others) (place : Nat) {item : β}
    {other : γ} (new : related item other) :
    List.Forall₂ related (items.set place item) (others.set place other) := by
  induction alike generalizing place with
  | nil => exact .nil
  | cons first rest ih =>
      cases place with
      | zero => exact .cons new rest
      | succ place => exact .cons first (ih place)

theorem forall₂_concat (alike : List.Forall₂ related items others) {item : β} {other : γ}
    (new : related item other) : List.Forall₂ related (items ++ [item]) (others ++ [other]) :=
  List.rel_append alike (.cons new .nil)

/-- What two functions read alike off related items they read alike off the lists. -/
theorem map_eq_map_of_forall₂ {δ : Type} {read : β → δ} {readToo : γ → δ}
    (alike : List.Forall₂ related items others)
    (same : ∀ {item other}, related item other → readToo other = read item) :
    others.map readToo = items.map read := by
  induction alike with
  | nil => rfl
  | cons first rest ih => rw [List.map_cons, List.map_cons, same first, ih]

end Lists

variable {compared : Comparison α} {config : LayoutConfig α}

namespace Element.Compares

variable {element other : Element} (compares : element.Compares compared other)
include compares

/-- Elements that compare are of one draft, level and outermost branch. -/
theorem parts_eq : other.draft = element.draft ∧ other.branchLevel = element.branchLevel ∧
    other.rootBranchId = element.rootBranchId := by
  have parts := Element.mk.inj compares.unplaced_eq
  exact ⟨parts.1, parts.2.2.1, parts.2.2.2.2.1⟩

end Element.Compares

/-- The rows of two rungs compare as their beginnings do. -/
theorem RungInput.Compares.rowY {input other : RungInput α}
    (inputs : input.Compares compared other) (row : α) :
    compared.down (input.rowY config row) (other.rowY config row) := by
  unfold RungInput.rowY RungInput.commentHeight
  rw [inputs.commentLines_eq]
  exact compared.down_add (compared.down_add (compared.down_add inputs.y _) _) _

/-! ### Passes -/

namespace BranchPass.Compares

variable {pass other : BranchPass α} (compares : pass.Compares compared config other)
include compares

theorem mapTop {change changeToo : OpenContext α → OpenContext α}
    (changes : ∀ {context contextToo : OpenContext α},
      context.Compares compared config contextToo →
        (change context).Compares compared config (changeToo contextToo)) :
    (pass.mapTop change).Compares compared config (other.mapTop changeToo) := by
  obtain ⟨arena, number, contexts, records⟩ := pass
  obtain ⟨arenaToo, numberToo, contextsToo, recordsToo⟩ := other
  obtain ⟨contextsAlike, recordsAlike⟩ := compares
  cases contextsAlike with
  | nil => exact ⟨.nil, recordsAlike⟩
  | cons own outer => exact ⟨.cons (changes own) outer, recordsAlike⟩

/-- A branch that is opened at places that compare. -/
theorem openBranch (id : BranchId) {element elementToo : Element}
    (alike : element.Compares compared elementToo) {startX startXToo rowY rowYToo : α}
    (startXs : compared.across startX startXToo) (rowYs : compared.down rowY rowYToo)
    (number : Address) (markerWidth row : α) (parent : Option BranchId) :
    (pass.openBranch id element ⟨number, startX, markerWidth, row, rowY, parent⟩).Compares compared
      config (other.openBranch id elementToo
        ⟨number, startXToo, markerWidth, row, rowYToo, parent⟩) := by
  have ends := compared.across_add startXs markerWidth
  refine ⟨.cons ?_ compares.contexts, forall₂_concat compares.records ?_⟩
  · exact ⟨compares.records.length_eq.symm, ⟨rfl, rfl, compared.across_add startXs _⟩, rfl, ends,
      rfl⟩
  · exact ⟨rfl, rfl, rfl, rfl, congrArg (·.getD id) alike.parts_eq.2.2, alike.parts_eq.2.1,
      alike.place, alike.place, startXs, ends, rowYs, rowYs, rowYs⟩

theorem nextRail {next nextToo : BranchPass α} {child childToo : Branch α} {id : BranchId}
    {position positionToo : Address} {rowY rowYToo : α → α}
    (place : compared.place position positionToo)
    (rowYs : ∀ row, compared.down (rowY row) (rowYToo row))
    (lowers : pass.nextRail id position rowY = .ok (child, next))
    (lowersToo : other.nextRail id positionToo rowYToo = .ok (childToo, nextToo)) :
    child.Compares compared childToo ∧ next.Compares compared config nextToo := by
  obtain ⟨arena, number, contexts, records⟩ := pass
  obtain ⟨arenaToo, numberToo, contextsToo, recordsToo⟩ := other
  obtain ⟨contextsAlike, recordsAlike⟩ := compares
  cases contextsAlike with
  | nil => cases lowers
  | @cons context contextToo outer outerToo own others =>
      unfold BranchPass.nextRail at lowers lowersToo
      dsimp only at lowers lowersToo
      rw [own.slot_eq, own.maxRow_eq, own.children_eq] at lowersToo
      cases found : records[context.slot]? with
      | none =>
          rw [found] at lowers
          cases lowers
      | some parent =>
          obtain ⟨parentToo, foundToo, same⟩ := exists_getElem?_of_forall₂ recordsAlike found
          rw [found] at lowers
          rw [foundToo] at lowersToo
          cases lowers
          cases lowersToo
          have rowHere := rowYs (context.maxRow + Scalar.ofNat 1)
          have child : Branch.Compares compared
              { parent with
                id := id
                parentId := some parent.id
                childIds := []
                startPosition := position
                endPosition := position
                branchY := rowY (context.maxRow + Scalar.ofNat 1)
                startY := rowY (context.maxRow + Scalar.ofNat 1)
                endY := rowY (context.maxRow + Scalar.ofNat 1) }
              { parentToo with
                id := id
                parentId := some parentToo.id
                childIds := []
                startPosition := positionToo
                endPosition := positionToo
                branchY := rowYToo (context.maxRow + Scalar.ofNat 1)
                startY := rowYToo (context.maxRow + Scalar.ofNat 1)
                endY := rowYToo (context.maxRow + Scalar.ofNat 1) } :=
            { same with
              id_eq := rfl
              parentId_eq := congrArg some same.id_eq
              childIds_eq := rfl
              start := place
              finish := place
              branchY := rowHere
              startY := rowHere
              endY := rowHere }
          refine ⟨child, .cons ?_ others, forall₂_concat (forall₂_set recordsAlike _ ?_) child⟩
          · refine ⟨rfl, ⟨rfl, rfl, compared.across_add same.startX _⟩, ?_, own.maxRight, rfl⟩
            rw [recordsAlike.length_eq]
          · exact { same with childIds_eq := congrArg (· ++ [id]) same.childIds_eq }

end BranchPass.Compares

/-- The records in some places of two lists of records compare. -/
theorem forall₂_slots {records recordsToo : List (Branch α)}
    (recordsAlike : List.Forall₂ (Branch.Compares compared) records recordsToo)
    (slots : List Nat) :
    List.Forall₂ (Branch.Compares compared) (slots.filterMap (records[·]?))
      (slots.filterMap (recordsToo[·]?)) :=
  List.rel_filterMap (fun place other (same : place = other) =>
    same ▸ rel_getElem? recordsAlike place) (List.forall₂_same.mpr fun _ _ => rfl)

theorem forall₂_setAll {records recordsToo branches branchesToo : List (Branch α)}
    (recordsAlike : List.Forall₂ (Branch.Compares compared) records recordsToo)
    (branchesAlike : List.Forall₂ (Branch.Compares compared) branches branchesToo)
    (slots : List Nat) :
    List.Forall₂ (Branch.Compares compared) (BranchPass.setAll records slots branches)
      (BranchPass.setAll recordsToo slots branchesToo) := by
  induction slots generalizing records recordsToo branches branchesToo with
  | nil => cases branchesAlike <;> exact recordsAlike
  | cons slot slots ih =>
      cases branchesAlike with
      | nil => exact recordsAlike
      | cons first rest => exact ih (forall₂_set recordsAlike slot first) rest

theorem forall₂_finishChildren {children childrenToo : List (Branch α)}
    (alike : List.Forall₂ (Branch.Compares compared) children childrenToo)
    {position positionToo : Address} (place : compared.place position positionToo)
    {closing closingToo : BranchClosing α} (endXs : compared.across closing.endX closingToo.endX)
    (endYs : compared.down closing.endY closingToo.endY) :
    List.Forall₂ (Branch.Compares compared) (BranchPass.finishChildren position closing children)
      (BranchPass.finishChildren positionToo closingToo childrenToo) := by
  induction alike with
  | nil => exact .nil
  | @cons child childToo rest restToo first others ih =>
      cases others with
      | nil =>
          exact .cons { first with
            finish := compared.place_previous place, endX := endXs, endY := endYs } .nil
      | @cons following followingToo more moreToo second others =>
          exact .cons { first with
            finish := compared.place_previous second.start
            endX := endXs
            endY := compared.down_sub second.branchY _ } ih

theorem BranchPass.Compares.closeBranch {pass other next nextToo : BranchPass α}
    (compares : pass.Compares compared config other) {id : BranchId}
    {position positionToo : Address} (place : compared.place position positionToo)
    {closingOf closingOfToo : OpenContext α → Branch α → BranchClosing α}
    (closings : ∀ {context contextToo : OpenContext α} (record recordToo : Branch α),
      context.Compares compared config contextToo →
        compared.across (closingOf context record).endX (closingOfToo contextToo recordToo).endX ∧
          compared.down (closingOf context record).endY (closingOfToo contextToo recordToo).endY)
    {closed closedToo : Branch α} {context contextToo : OpenContext α}
    (closes : pass.closeBranch id position closingOf = (.ok (closed, context), next))
    (closesToo : other.closeBranch id positionToo closingOfToo =
      (.ok (closedToo, contextToo), nextToo)) :
    context.Compares compared config contextToo ∧ next.Compares compared config nextToo := by
  obtain ⟨arena, number, contexts, records⟩ := pass
  obtain ⟨arenaToo, numberToo, contextsToo, recordsToo⟩ := other
  obtain ⟨contextsAlike, recordsAlike⟩ := compares
  cases contextsAlike with
  | nil => cases closes
  | @cons innermost innermostToo outer outerToo own others =>
      unfold BranchPass.closeBranch at closes closesToo
      dsimp only at closes closesToo
      rw [own.slot_eq] at closesToo
      cases found : records[innermost.slot]? with
      | none =>
          rw [found] at closes
          cases closes
      | some record =>
          obtain ⟨recordToo, foundToo, same⟩ := exists_getElem?_of_forall₂ recordsAlike found
          rw [found] at closes
          rw [foundToo] at closesToo
          dsimp only at closes closesToo
          by_cases isOwn : record.id = id
          · have isOwnToo : recordToo.id = id := same.id_eq.trans isOwn
            rw [if_neg (not_not.mpr isOwn)] at closes
            rw [if_neg (not_not.mpr isOwnToo)] at closesToo
            cases closes
            cases closesToo
            obtain ⟨endXs, endYs⟩ := closings record recordToo own
            have closed : Branch.Compares compared
                { record with
                  endPosition := position
                  endX := (closingOf context record).endX
                  endY := (closingOf context record).endY }
                { recordToo with
                  endPosition := positionToo
                  endX := (closingOfToo contextToo recordToo).endX
                  endY := (closingOfToo contextToo recordToo).endY } :=
              { same with finish := place, endX := endXs, endY := endYs }
            have children := forall₂_slots recordsAlike context.children
            refine ⟨own, BranchPass.Compares.mapTop ⟨others, ?_⟩ fun parents =>
              { parents with
                maxRow_eq := congrArg₂ Scalar.max parents.maxRow_eq own.maxRow_eq
                maxRight := compared.across_max parents.maxRight endXs }⟩
            unfold BranchPass.childrenOf
            rw [own.children_eq]
            exact forall₂_setAll (forall₂_set recordsAlike _ closed)
              (forall₂_finishChildren children place endXs endYs) _
          · rw [if_pos isOwn] at closes
            cases closes

/-! ### Steps -/

namespace LayoutState

omit [Scalar α] in
@[simp] theorem placed_mapRail (state : LayoutState α) (change : RailCursor α → RailCursor α) :
    (state.mapRail change).placed = state.placed := by
  unfold mapRail
  cases state.pass.top? <;> rfl

@[simp] theorem placed_takePlace (state : LayoutState α) (width : α) :
    (state.takePlace config width).2.placed = state.placed :=
  placed_mapRail state _

theorem run_cons_eq_ok_iff {input : RungInput α} {state final : LayoutState α}
    {element : Element} {rest : List Element} :
    state.run config input (element :: rest) = .ok final ↔
      ∃ next, state.step config input element = .ok next ∧
        next.run config input rest = .ok final := by
  rw [run]
  cases state.step config input element with
  | error error => simp
  | ok next => simp

/-- A pass over two runs is a pass over the first one and then over the second. -/
theorem run_append_eq_ok_iff {input : RungInput α} {state final : LayoutState α}
    {first second : List Element} :
    state.run config input (first ++ second) = .ok final ↔
      ∃ between, state.run config input first = .ok between ∧
        between.run config input second = .ok final := by
  induction first generalizing state with
  | nil => simp [run]
  | cons element rest ih =>
      simp only [List.cons_append, run_cons_eq_ok_iff, ih]
      constructor
      · rintro ⟨next, steps, between, front, back⟩
        exact ⟨between, ⟨next, steps, front⟩, back⟩
      · rintro ⟨between, ⟨next, steps, front⟩, back⟩
        exact ⟨next, steps, between, front, back⟩

end LayoutState

namespace LayoutState.Compares

variable {state other : LayoutState α} (compares : state.Compares compared config other)
include compares

theorem rail : state.rail.Compares compared config other.rail := by
  obtain ⟨⟨arena, number, contexts, records⟩, mainRail, maxRow, rightEdge, placed⟩ := state
  obtain ⟨⟨arenaToo, numberToo, contextsToo, recordsToo⟩, mainRailToo, maxRowToo, rightEdgeToo,
    placedToo⟩ := other
  obtain ⟨⟨contextsAlike, -⟩, mainAlike, -, -⟩ := compares
  cases contextsAlike with
  | nil => exact mainAlike
  | cons own outer => exact own.rail

theorem mapRail {change changeToo : RailCursor α → RailCursor α}
    (changes : ∀ {cursor cursorToo : RailCursor α}, cursor.Compares compared config cursorToo →
      (change cursor).Compares compared config (changeToo cursorToo)) :
    (state.mapRail change).Compares compared config (other.mapRail changeToo) := by
  obtain ⟨⟨arena, number, contexts, records⟩, mainRail, maxRow, rightEdge, placed⟩ := state
  obtain ⟨⟨arenaToo, numberToo, contextsToo, recordsToo⟩, mainRailToo, maxRowToo, rightEdgeToo,
    placedToo⟩ := other
  obtain ⟨⟨contextsAlike, recordsAlike⟩, mainAlike, rows, edges⟩ := compares
  cases contextsAlike with
  | nil => exact ⟨⟨.nil, recordsAlike⟩, changes mainAlike, rows, edges⟩
  | cons own outer =>
      exact ⟨⟨.cons { own with rail := changes own.rail } outer, recordsAlike⟩, mainAlike, rows,
        edges⟩

/-- What was placed last on the rails ends at places that compare. -/
theorem filled {right rightToo : α} (rights : compared.across right rightToo) :
    (state.mapRail fun rail => { rail with lastRight := some right }).Compares compared config
      (other.mapRail fun rail => { rail with lastRight := some rightToo }) :=
  compares.mapRail fun cursors =>
    { cursors with next := compared.across_add (compared.across_add rights _) _ }

theorem takePlace (width : α) :
    compared.across (state.takePlace config width).1 (other.takePlace config width).1 ∧
      (state.takePlace config width).2.Compares compared config
        (other.takePlace config width).2 := by
  have rights := compared.across_add compares.rail.next width
  have filled := compares.filled rights
  refine ⟨compares.rail.next, ?_, filled.mainRail, filled.maxRow_eq,
    compared.across_max compares.rightEdge rights⟩
  exact filled.pass.mapTop fun own =>
    { own with maxRight := compared.across_max own.maxRight rights }

/-- An element that both passes meet is placed by both, and behind it they compare. -/
theorem step {next nextToo : LayoutState α} {input inputToo : RungInput α}
    (inputs : input.Compares compared inputToo) {element elementToo : Element}
    (alike : element.Compares compared elementToo)
    (steps : state.step config input element = .ok next)
    (stepsToo : other.step config inputToo elementToo = .ok nextToo) :
    next.Compares compared config nextToo ∧ ∃ placed placedToo : LayoutElement α,
      next.placed = placed :: state.placed ∧ nextToo.placed = placedToo :: other.placed ∧
        placed.Compares compared placedToo := by
  have rows (row : α) : compared.down (input.rowY config row) (inputToo.rowY config row) :=
    inputs.rowY row
  unfold LayoutState.step at steps stepsToo
  rw [alike.parts_eq.1, inputs.rungNumber_eq] at stepsToo
  cases kind : element.draft with
  | instruction content =>
      rw [kind] at steps stepsToo
      cases steps
      cases stepsToo
      obtain ⟨xs, after⟩ := compares.takePlace (config.sizeOf content.category).width
      refine ⟨{ after with }, _, _, congrArg _ (placed_takePlace _ _),
        congrArg _ (placed_takePlace _ _), alike, xs, ?_, rfl, rfl, rfl,
        compares.rail.railId_eq, rfl⟩
      rw [compares.rail.row_eq]
      exact rows _
  | branchStart id =>
      rw [kind] at steps stepsToo
      dsimp only at steps stepsToo
      rw [compares.rail.row_eq, compares.rail.railId_eq] at stepsToo
      cases steps
      cases stepsToo
      obtain ⟨xs, after⟩ := compares.takePlace config.sizes.branchMarker.width
      refine ⟨{ after with
          pass := after.pass.openBranch id alike xs (rows _) _ _ _ _
          maxRow_eq := congrArg (Scalar.max · _) after.maxRow_eq }, _, _,
        congrArg _ (placed_takePlace _ _), congrArg _ (placed_takePlace _ _), alike, xs, rows _,
        rfl, rfl, rfl, rfl, rfl⟩
  | branchNext id =>
      rw [kind] at steps stepsToo
      dsimp only at steps stepsToo
      split at steps
      next => cases steps
      next child pass lowers =>
        split at stepsToo
        next => cases stepsToo
        next childToo passToo lowersToo =>
          cases steps
          cases stepsToo
          obtain ⟨children, passes⟩ := compares.pass.nextRail alike.place rows lowers lowersToo
          have lowered : LayoutState.Compares compared config { state with pass := pass }
              { other with pass := passToo } := { compares with pass := passes }
          refine ⟨{ lowered with
              maxRow_eq := congrArg₂ Scalar.max lowered.maxRow_eq lowered.rail.row_eq }, _, _,
            rfl, rfl, alike, children.startX, children.branchY, rfl, rfl, rfl,
            congrArg some children.id_eq, rfl⟩
  | branchEnd id =>
      rw [kind] at steps stepsToo
      dsimp only at steps stepsToo
      split at steps
      next => cases steps
      next closed context pass closes =>
        split at stepsToo
        next => cases stepsToo
        next closedToo contextToo passToo closesToo =>
          cases steps
          cases stepsToo
          have markers {own ownToo : OpenContext α} (owns : own.Compares compared config ownToo) :=
            compared.across_add (compared.across_add owns.maxRight config.elementSpacing)
              config.minimumWireLength
          obtain ⟨contexts, passes⟩ := compares.pass.closeBranch alike.place
            (fun _ _ owns => ⟨compared.across_add (markers owns) _, by
              rw [owns.maxRow_eq]
              exact compared.down_sub (compared.down_add (rows _) _) _⟩) closes closesToo
          have closed : LayoutState.Compares compared config { state with pass := pass }
              { other with pass := passToo } := { compares with pass := passes }
          have rights := compared.across_add (markers contexts) config.sizes.branchMarker.width
          have filled := closed.filled rights
          refine ⟨{ filled with rightEdge := compared.across_max filled.rightEdge rights }, _, _,
            congrArg _ (placed_mapRail _ _), congrArg _ (placed_mapRail _ _), alike,
            markers contexts, ?_, rfl, rfl, rfl, filled.rail.railId_eq, rfl⟩
          rw [filled.rail.row_eq]
          exact rows _

/-- What two passes place over elements that compare, behind what they have placed before. -/
theorem run {final finalToo : LayoutState α} {input inputToo : RungInput α}
    (inputs : input.Compares compared inputToo) {elements elementsToo : List Element}
    (alike : List.Forall₂ (Element.Compares compared) elements elementsToo)
    (runs : state.run config input elements = .ok final)
    (runsToo : other.run config inputToo elementsToo = .ok finalToo) :
    final.Compares compared config finalToo ∧ ∃ placed placedToo : List (LayoutElement α),
      final.placed.reverse = state.placed.reverse ++ placed ∧
        finalToo.placed.reverse = other.placed.reverse ++ placedToo ∧
          placed.length = elements.length ∧
            List.Forall₂ (LayoutElement.Compares compared) placed placedToo := by
  induction alike generalizing state other with
  | nil =>
      cases runs
      cases runsToo
      exact ⟨compares, [], [], (List.append_nil _).symm, (List.append_nil _).symm, rfl, .nil⟩
  | @cons element elementToo rest restToo first others ih =>
      obtain ⟨next, steps, runs⟩ := LayoutState.run_cons_eq_ok_iff.mp runs
      obtain ⟨nextToo, stepsToo, runsToo⟩ := LayoutState.run_cons_eq_ok_iff.mp runsToo
      obtain ⟨after, own, ownToo, new, newToo, same⟩ := compares.step inputs first steps stepsToo
      obtain ⟨last, more, moreToo, behind, behindToo, count, alike⟩ := ih after runs runsToo
      refine ⟨last, own :: more, ownToo :: moreToo, ?_, ?_, congrArg (· + 1) count,
        .cons same alike⟩
      · rw [behind, new, List.reverse_cons, List.append_assoc]
        rfl
      · rw [behindToo, newToo, List.reverse_cons, List.append_assoc]
        rfl

/-- An instruction that only the second pass meets moves on its rail and bounds it. -/
theorem step_instruction (widens : compared.Widens config) {inputToo : RungInput α}
    {element : Element} {content : Instruction} (holds : element.draft = .instruction content)
    {nextToo : LayoutState α} (steps : other.step config inputToo element = .ok nextToo) :
    state.Compares compared config nextToo ∧ ∃ placed : LayoutElement α,
      nextToo.placed = placed :: other.placed := by
  unfold LayoutState.step at steps
  rw [holds] at steps
  cases steps
  obtain ⟨⟨arena, number, contexts, records⟩, mainRail, maxRow, rightEdge, placed⟩ := state
  obtain ⟨⟨arenaToo, numberToo, contextsToo, recordsToo⟩, mainRailToo, maxRowToo, rightEdgeToo,
    placedToo⟩ := other
  obtain ⟨⟨contextsAlike, recordsAlike⟩, mainAlike, rows, edges⟩ := compares
  cases contextsAlike with
  | nil =>
      refine ⟨⟨⟨.nil, recordsAlike⟩, ?_, rows, widens.max _ edges⟩, _, rfl⟩
      exact ⟨mainAlike.railId_eq, mainAlike.row_eq, widens.behind _ mainAlike.next⟩
  | cons own outer =>
      refine ⟨⟨⟨.cons ?_ outer, recordsAlike⟩, mainAlike, rows, widens.max _ edges⟩, _, rfl⟩
      exact { own with
        rail := ⟨own.rail.railId_eq, own.rail.row_eq, widens.behind _ own.rail.next⟩
        maxRight := widens.max _ own.maxRight }

end LayoutState.Compares

/-! ### Layouts -/

/-- Layouts of one size, in which the comparison holds between all bounds and between the
records of each marker; what is placed is left out. -/
structure LayoutResult.Compares (compared : Comparison α) (layout other : LayoutResult α) :
    Prop where
  y : compared.down layout.y other.y
  height_eq : other.height = layout.height
  rungNumber_eq : other.rungNumber = layout.rungNumber
  commentHeight_eq : other.commentHeight = layout.commentHeight
  rowCount_eq : other.rowCount = layout.rowCount
  maxBranchDepth_eq : other.maxBranchDepth = layout.maxBranchDepth
  rightEdge : compared.across layout.rightEdge other.rightEdge
  rightRailX : compared.across layout.rightRailX other.rightRailX
  branches : List.Forall₂ (Branch.Compares compared) layout.branches other.branches

namespace LayoutState

variable {input inputToo : RungInput α}

variable (compared config) in
theorem start_compares (arena : Arena α) :
    (start config arena input).Compares compared config (start config arena inputToo) :=
  ⟨⟨.nil, .nil⟩, ⟨rfl, rfl, compared.across_refl _⟩, rfl, compared.across_refl _⟩

theorem Compares.result (inputs : input.Compares compared inputToo)
    {state other : LayoutState α} (compares : state.Compares compared config other) :
    (state.result config input state.pass.records).Compares compared
      (other.result config inputToo other.pass.records) := by
  have commentHeights : inputToo.commentHeight config = input.commentHeight config :=
    congrArg (· * config.commentLineHeight) inputs.commentLines_eq
  have rows : other.maxRow + Scalar.ofNat 1 = state.maxRow + Scalar.ofNat 1 :=
    congrArg (· + Scalar.ofNat 1) compares.maxRow_eq
  refine ⟨inputs.y, ?_, inputs.rungNumber_eq, commentHeights, rows, ?_, compares.rightEdge,
    compared.across_max (compared.across_refl _) (compared.across_add compares.rightEdge _),
    compares.pass.records⟩
  · unfold LayoutState.result
    dsimp only
    rw [rows, commentHeights]
  · refine (List.rel_foldl (P := Eq) ?_ rfl compares.pass.records).symm
    intro depth depthToo same record recordToo alike
    exact congrArg₂ (fun depth (level : Address) => depth.later level.next) same
      alike.branchLevel_eq.symm

end LayoutState

namespace LayoutResult.IsOf

variable {input inputToo : RungInput α} {layout other : LayoutResult α}
  (isOf : layout.IsOf config input) (otherIsOf : other.IsOf config inputToo)
  (inputs : input.Compares compared inputToo)
include isOf otherIsOf inputs

/-- Layouts of two sequences that compare element by element. -/
theorem compares
    (alike : List.Forall₂ (Element.Compares compared) input.elements inputToo.elements) :
    layout.Compares compared other ∧
      List.Forall₂ (LayoutElement.Compares compared) layout.elements other.elements := by
  obtain ⟨final, runs, rfl⟩ := isOf.exists_run
  obtain ⟨finalToo, runsToo, rfl⟩ := otherIsOf.exists_run
  obtain ⟨finals, placed, placedToo, behind, behindToo, -, same⟩ :=
    (LayoutState.start_compares compared config .empty).run inputs alike runs runsToo
  refine ⟨finals.result inputs, ?_⟩
  change List.Forall₂ _ final.placed.reverse finalToo.placed.reverse
  rw [behind, behindToo]
  exact same

/-- Layouts of two sequences of which the second one holds one more instruction. -/
theorem compares_inserted (widens : compared.Widens config) {gap : Nat} {element : Element}
    {content : Instruction} (found : inputToo.elements[gap]? = some element)
    (holds : element.draft = .instruction content)
    (alike : List.Forall₂ (Element.Compares compared) input.elements
      (inputToo.elements.eraseIdx gap)) :
    layout.Compares compared other ∧
      List.Forall₂ (LayoutElement.Compares compared) layout.elements
        (other.elements.eraseIdx gap) := by
  obtain ⟨short, frontToo⟩ := List.getElem?_eq_some_iff.mp found
  have partsToo : inputToo.elements =
      inputToo.elements.take gap ++ element :: inputToo.elements.drop (gap + 1) := by
    rw [← frontToo, List.getElem_cons_drop, List.take_append_drop]
  rw [List.eraseIdx_eq_take_drop_succ] at alike
  have front := List.forall₂_take gap alike
  have back := List.forall₂_drop gap alike
  have count : (inputToo.elements.take gap).length = gap :=
    List.length_take_of_le short.le
  rw [List.take_left' count] at front
  rw [List.drop_left' count] at back
  obtain ⟨final, runs, rfl⟩ := isOf.exists_run
  obtain ⟨finalToo, runsToo, rfl⟩ := otherIsOf.exists_run
  rw [← List.take_append_drop gap input.elements] at runs
  rw [partsToo] at runsToo
  obtain ⟨before, runsFront, runsBack⟩ := LayoutState.run_append_eq_ok_iff.mp runs
  obtain ⟨beforeToo, runsFrontToo, runsRest⟩ := LayoutState.run_append_eq_ok_iff.mp runsToo
  obtain ⟨behind, steps, runsBackToo⟩ := LayoutState.run_cons_eq_ok_iff.mp runsRest
  obtain ⟨befores, placed, placedToo, own, ownToo, length, sameFront⟩ :=
    (LayoutState.start_compares compared config .empty).run inputs front runsFront runsFrontToo
  obtain ⟨behinds, come, comes⟩ := befores.step_instruction widens holds steps
  obtain ⟨finals, more, moreToo, total, totalToo, -, sameBack⟩ :=
    behinds.run inputs back runsBack runsBackToo
  have countToo : placedToo.length = gap := by
    rw [← sameFront.length_eq, length, front.length_eq, count]
  have totalToo : finalToo.placed.reverse = placedToo ++ come :: moreToo := by
    rw [totalToo, comes, List.reverse_cons, ownToo, List.append_assoc]
    rfl
  refine ⟨finals.result inputs, ?_⟩
  change List.Forall₂ _ final.placed.reverse (finalToo.placed.reverse.eraseIdx gap)
  rw [total, own, totalToo, ← countToo, List.eraseIdx_append_of_length_le le_rfl, Nat.sub_self]
  exact List.rel_append sameFront sameBack

end LayoutResult.IsOf

end LadderDiagram
