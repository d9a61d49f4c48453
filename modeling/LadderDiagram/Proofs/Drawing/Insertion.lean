import LadderDiagram.Proofs.Drawing.Bands
import LadderDiagram.Proofs.Layout.RailRow
import LadderDiagram.Proofs.Layout.Shape

/-!
# The gap of a rail at a place

The search for the gap of a rail is given the rail, its level and a place `x`.  In exact
numbers it finds the gap at which the place splits the row of the rail.  In any numbers it
finds a gap of this rail: which blocks there are, and which gaps are before and behind them,
does not depend on the measures, so it is seen on the standard layout of the same sequence.
-/

namespace LadderDiagram

/-- Under a valid configuration every element is at least one unit wide. -/
theorem LayoutConfig.one_le_width {config : LayoutConfig Rat} (valid : config.isValid = true)
    (draft : Draft) : 1 ≤ (config.draftSize draft).width := by
  have atLeast {value : Rat} (isWhole : IsWhole value) (positive : 0 < value) : 1 ≤ value := by
    have below := (IsWhole.natCast 0).le_sub_one isWhole (by simpa using positive)
    simp only [Nat.cast_zero] at below
    linarith
  unfold isValid at valid
  simp only [Bool.and_eq_true, admitsSize_iff] at valid
  obtain ⟨⟨⟨⟨⟨⟨_, contact⟩, coil⟩, block⟩, marker⟩, _⟩, _⟩ := valid
  cases draft with
  | instruction content =>
      change 1 ≤ (config.sizeOf content.category).width
      cases content.category with
      | contact => exact atLeast contact.1 contact.2.2.1
      | coil => exact atLeast coil.1 coil.2.2.1
      | block => exact atLeast block.1 block.2.2.1
  | branchStart id => exact atLeast marker.1 marker.2.2.1
  | branchNext id => exact atLeast marker.1 marker.2.2.1
  | branchEnd id => exact atLeast marker.1 marker.2.2.1

/-! ### The blocks of a layout -/

section Blocks

variable {α : Type}

namespace LayoutResult

/-- The record of a branch of a layout. -/
def branch? (layout : LayoutResult α) (id : BranchId) : Option (Branch α) :=
  layout.branches.find? (·.id == id)

theorem branch?_eq {layout : LayoutResult α} (distinct : (layout.branches.map (·.id)).Nodup)
    {record : Branch α} (member : record ∈ layout.branches) :
    layout.branch? record.id = some record := by
  unfold branch?
  revert distinct member
  induction layout.branches with
  | nil => exact fun _ member => absurd member List.not_mem_nil
  | cons first rest ih =>
      intro distinct member
      obtain ⟨apart, others⟩ := List.nodup_cons.mp distinct
      rcases List.mem_cons.mp member with rfl | later
      · exact List.find?_cons_of_pos (beq_iff_eq.mpr rfl)
      · have different : (first.id == record.id) = false :=
          beq_eq_false_iff_ne.mpr fun same => apart (List.mem_map.mpr ⟨record, later, same.symm⟩)
        rw [List.find?_cons, different]
        exact ih others later

theorem branch?_shape (layout : LayoutResult α) (id : BranchId) :
    layout.shape.branch? id = (layout.branch? id).map Branch.shape := by
  unfold branch?
  exact List.find?_map

/-- What is recorded of a rail is seen on the shape of the layout. -/
theorem IsRecorded.of_shape {β : Type} {layout : LayoutResult α} {other : LayoutResult β}
    {rail : Option BranchId} {level start : Nat} (recorded : layout.IsRecorded rail level start)
    (same : layout.shape = other.shape) : other.IsRecorded rail level start := by
  rcases recorded with isMain | ⟨record, member, rfl, named, begins⟩
  · exact Or.inl isMain
  · have branches : layout.branches.map Branch.shape = other.branches.map Branch.shape :=
      congrArg LayoutResult.branches same
    have inShape : record.shape ∈ other.branches.map Branch.shape :=
      branches ▸ List.mem_map_of_mem member
    obtain ⟨own, isOwn, sameShape⟩ := List.mem_map.mp inShape
    refine Or.inr ⟨own, isOwn, congrArg some (congrArg Branch.id sameShape).symm, ?_, ?_⟩
    · rw [← named]
      exact congrArg (fun shape : Branch Unmeasured => shape.branchLevel.next) sameShape
    · rw [← begins]
      exact congrArg (fun shape : Branch Unmeasured => shape.startPosition.next) sameShape

variable [Scalar α]

/-- The blocks of a rail as the search has them, read off a layout alone. -/
def blocksOn (layout : LayoutResult α) (rail : Option BranchId) : List (RailBlock α) :=
  layout.elements.filterMap (LayoutElement.block? layout.branch? rail)

end LayoutResult

/-- A block without its centre. -/
def RailBlock.shape (block : RailBlock α) : RailBlock Unmeasured := { block with center := ⟨⟩ }

variable [Scalar α]

theorem LayoutElement.block?_shape (placed : LayoutElement α)
    (lookup : BranchId → Option (Branch α)) (rail : Option BranchId) :
    placed.shape.block? (fun id => (lookup id).map Branch.shape) rail =
      (placed.block? lookup rail).map RailBlock.shape := by
  unfold block? shape
  split
  next =>
    cases draft : placed.element.draft with
    | instruction content => rfl
    | branchStart id =>
        dsimp only
        cases lookup id <;> rfl
    | branchNext id => rfl
    | branchEnd id => rfl
  next => rfl

theorem LayoutResult.blocksOn_shape (layout : LayoutResult α) (rail : Option BranchId) :
    layout.shape.blocksOn rail = (layout.blocksOn rail).map RailBlock.shape := by
  have lookup : layout.shape.branch? = fun id => (layout.branch? id).map Branch.shape :=
    funext layout.branch?_shape
  unfold blocksOn
  rw [lookup, List.map_filterMap]
  change (layout.elements.map LayoutElement.shape).filterMap _ = _
  rw [List.filterMap_map]
  exact congrArg (List.filterMap · layout.elements)
    (funext fun placed => placed.block?_shape layout.branch? rail)

end Blocks

namespace Drawing

variable {α : Type} [Scalar α] {drawing : Drawing α} {index : Nat} {rung : Rung}
  {layout : LayoutResult α}

/-! ### The standard layout of the same sequence -/

/-- A rung has the shape that the recursion over its tree gives it. -/
theorem Draws.exists_shape (laid : drawing.LaidOut) (draws : drawing.Draws index rung layout) :
    ∃ tree : RailTree, rung.elements = tree.elements .main 0 ∧ WellNested tree.drafts ∧
      layout.shape = (tree.layout .standard (rungInput index 0 rung)).shape := by
  have sound := laid.sound.rungAt draws.stands
  have alike : (rungInput index (drawing.bandStart index) rung).shape =
      (rungInput index (0 : Rat) rung).shape := rfl
  obtain ⟨tree, same, annotated, shape⟩ := draws.isOf.exists_tree sound.annotated alike
  exact ⟨tree, annotated, same ▸ sound.wellNested, shape⟩

section Records

variable (laid : drawing.LaidOut) (draws : drawing.Draws index rung layout)

include laid draws

theorem Draws.rungNumber_eq : layout.rungNumber = .ofNat index := by
  obtain ⟨tree, _, _, same⟩ := draws.exists_shape laid
  exact congrArg LayoutResult.rungNumber same

theorem Draws.map_element_eq : layout.elements.map LayoutElement.element = rung.elements := by
  obtain ⟨tree, annotated, _, same⟩ := draws.exists_shape laid
  have elements := congrArg (fun shape => shape.elements.map LayoutElement.element) same
  simp only [LayoutResult.shape, List.map_map] at elements
  exact elements.trans ((tree.map_element_main .standard _).trans annotated.symm)

/-- The search for a rung by its number finds its layout. -/
theorem Draws.layoutOf_eq : drawing.layoutOf (.ofNat index) = .ok layout := by
  have member := List.mem_of_getElem? draws.cached
  have number := draws.rungNumber_eq laid
  unfold layoutOf
  cases finds : drawing.layouts.find? (·.rungNumber == .ofNat index) with
  | none =>
      have misses := List.find?_eq_none.mp finds layout member
      rw [number] at misses
      simp at misses
  | some found =>
      have named : found.rungNumber = .ofNat index := by simpa using List.find?_some finds
      obtain ⟨other, cached⟩ := List.mem_iff_getElem?.mp (List.mem_of_find?_eq_some finds)
      obtain ⟨another, otherDraws⟩ := laid.exists_draws_of_cached cached
      rw [otherDraws.rungNumber_eq laid, Address.ofNat_inj] at named
      subst named
      exact congrArg Except.ok (Option.some.inj (otherDraws.cached.symm.trans draws.cached))

theorem Draws.get?_eq {record : Branch α} (member : record ∈ layout.branches) :
    drawing.arena.get? record.id = some record :=
  laid.sorted.get?_eq ((draws.branches record).mp member).1

theorem Draws.branch?_eq {record : Branch α} (member : record ∈ layout.branches) :
    layout.branch? record.id = some record :=
  LayoutResult.branch?_eq
    (draws.isOf.ids_eq ▸ (laid.sound.rungAt draws.stands).nodup_handles) member

/-- The blocks of a rail can be read off the layout of its rung. -/
theorem Draws.railBlocks_eq_blocksOn (rail : Option BranchId) :
    drawing.railBlocks layout rail = layout.blocksOn rail := by
  rw [railBlocks_eq]
  refine List.filterMap_congr fun placed member => ?_
  unfold LayoutElement.block?
  split
  next =>
    cases draft : placed.element.draft with
    | instruction content => rfl
    | branchStart id =>
        have stands : placed.element ∈ rung.elements :=
          draws.map_element_eq laid ▸ List.mem_map_of_mem member
        have opened : id ∈ layout.branches.map (·.id) := by
          rw [draws.isOf.ids_eq]
          exact mem_openedIds.mpr (Or.inl (draft ▸ List.mem_map_of_mem stands))
        obtain ⟨record, isRecord, rfl⟩ := List.mem_map.mp opened
        dsimp only
        rw [draws.get?_eq laid isRecord, draws.branch?_eq laid isRecord]
    | branchNext id => rfl
    | branchEnd id => rfl
  next => rfl

end Records

/-! ### The search -/

/-- The gap that is found at a place on a rail with a first gap and some blocks. -/
def positionOn (x : α) (start : Address) : List (RailBlock α) → Address
  | [] => start
  | first :: rest =>
      let nearest := nearestBlock x first rest
      if Scalar.lt x nearest.center then nearest.before else nearest.after

/-- The search is one among the blocks of the rail, if it is given the right level. -/
theorem Draws.findInsertionPosition_eq (laid : drawing.LaidOut)
    (draws : drawing.Draws index rung layout) {rail : Option BranchId} {level start : Nat}
    (recorded : layout.IsRecorded rail level start) (x : α) :
    drawing.findInsertionPosition x (.ofNat index) (.ofNat level) rail =
      .ok (positionOn x (.ofNat start) (layout.blocksOn rail)) := by
  unfold findInsertionPosition
  rw [draws.layoutOf_eq laid]
  rcases recorded with ⟨rfl, rfl, rfl⟩ | ⟨record, member, rfl, named, begins⟩
  · simp only [railIn, bind, Except.bind, pure, Except.pure, ne_eq,
      not_true_eq_false, if_false, Option.map_none, draws.railBlocks_eq_blocksOn laid]
    cases layout.blocksOn none <;> rfl
  · have number : record.rungNumber = .ofNat index := ((draws.branches record).mp member).2
    simp only [railIn, draws.get?_eq laid member, number, if_true, bind, Except.bind, pure,
      Except.pure, named, ne_eq, not_true_eq_false, if_false, Option.map_some,
      draws.railBlocks_eq_blocksOn laid]
    cases layout.blocksOn (some record.id) <;> simp [positionOn, begins]

/-- If all gaps beside the blocks of a rail have a property, so has the one that is found. -/
theorem exists_positionOn {isGap : Nat → Prop} {start : Nat} {blocks : List (RailBlock α)}
    (first : isGap start)
    (beside : ∀ block ∈ blocks, ∃ before after, block.before = .ofNat before ∧
      block.after = .ofNat after ∧ isGap before ∧ isGap after) (x : α) :
    ∃ gap, positionOn x (.ofNat start) blocks = .ofNat gap ∧ isGap gap := by
  cases blocks with
  | nil => exact ⟨start, rfl, first⟩
  | cons block rest =>
      obtain ⟨before, after, isBefore, isAfter, gapBefore, gapAfter⟩ :=
        beside _ (nearestBlock_mem x block rest)
      unfold positionOn
      dsimp only
      split
      next => exact ⟨before, isBefore, gapBefore⟩
      next => exact ⟨after, isAfter, gapAfter⟩

/--
On every rail of a rung, given its level, a gap of this rail is found, wherever the place is
and whatever numbers the drawing is made with.
-/
theorem Draws.exists_gap (laid : drawing.LaidOut) (draws : drawing.Draws index rung layout)
    {rail : Option BranchId} (isRail : rail = none ∨ Opens (drafts rung.elements) rail) :
    ∃ level start, layout.IsRecorded rail level start ∧
      (∀ gap ≤ rung.elements.length, railAtGap rung.elements gap = rail →
        levelAtGap rung.elements gap = .ofNat level) ∧
      ∀ x, ∃ gap ≤ rung.elements.length, railAtGap rung.elements gap = rail ∧
        drawing.findInsertionPosition x (.ofNat index) (.ofNat level) rail = .ok (.ofNat gap) := by
  obtain ⟨tree, annotated, nested, same⟩ := draws.exists_shape laid
  rw [annotated, tree.drafts_elements] at isRail
  obtain ⟨level, start, blocks, hasRow⟩ := tree.exists_hasRow LayoutConfig.keepsRules_standard
    (LayoutConfig.one_le_width (by decide +kernel)) nested isRail
  have recorded : layout.IsRecorded rail level start := hasRow.recorded.of_shape same.symm
  refine ⟨level, start, recorded, fun gap within onRail => ?_, fun x => ?_⟩
  · rw [annotated] at within onRail ⊢
    exact (hasRow.isGap gap within onRail).2
  -- The blocks of both layouts are the same but for their centres.
  have shapes : (layout.blocksOn rail).map RailBlock.shape =
      (blocks.map Block.toRailBlock).map RailBlock.shape := by
    rw [← LayoutResult.blocksOn_shape, same, LayoutResult.blocksOn_shape]
    refine congrArg _ (hasRow.searched _ fun record member => ?_)
    refine LayoutResult.branch?_eq ?_ member
    have ids := congrArg (fun shape => shape.branches.map (·.id)) same
    simp only [LayoutResult.shape, List.map_map] at ids
    have distinct := (laid.sound.rungAt draws.stands).nodup_handles
    rw [show rung.handles = layout.branches.map (·.id) from draws.isOf.ids_eq.symm] at distinct
    exact ids ▸ distinct
  obtain ⟨gap, found, isGap⟩ := @exists_positionOn _ _ (Row.IsGap start blocks) start
    (layout.blocksOn rail) (Or.inl rfl) (fun block member => by
      have inShapes : block.shape ∈ (blocks.map Block.toRailBlock).map RailBlock.shape :=
        shapes ▸ List.mem_map_of_mem member
      simp only [List.map_map, List.mem_map] at inShapes
      obtain ⟨own, isOwn, sameShape⟩ := inShapes
      exact ⟨own.start, own.finish, (congrArg RailBlock.before sameShape).symm,
        (congrArg RailBlock.after sameShape).symm, hasRow.row.isGap_start isOwn,
        Or.inr ⟨own, isOwn, rfl⟩⟩) x
  obtain ⟨within, onRail⟩ := hasRow.onRail gap isGap
  rw [draws.findInsertionPosition_eq laid recorded, found, annotated]
  exact ⟨gap, within, onRail, rfl⟩

/-- In exact numbers, the gap that is found is the one at which the place splits the row. -/
theorem Draws.findInsertionPosition_eq_splitGap {drawing : Drawing Rat} {index : Nat}
    {rung : Rung} {layout : LayoutResult Rat} (laid : drawing.LaidOut)
    (draws : drawing.Draws index rung layout) {rail : Option BranchId} {level start : Nat}
    {blocks : List Block} (hasRow : layout.HasRow rung.elements rail level start blocks)
    (x : Rat) :
    drawing.findInsertionPosition x (.ofNat index) (.ofNat level) rail =
      .ok (.ofNat (splitGap x start blocks)) := by
  have searched := hasRow.searched layout.branch? fun record member =>
    draws.branch?_eq laid member
  rw [draws.findInsertionPosition_eq laid hasRow.recorded, LayoutResult.blocksOn, searched]
  refine congrArg Except.ok ?_
  cases blocks with
  | nil => rfl
  | cons first rest =>
      have member := nearestBlock_mem x first.toRailBlock (rest.map Block.toRailBlock)
      have nearest := nearestBlock_le x first.toRailBlock (rest.map Block.toRailBlock)
      rw [← List.map_cons] at member nearest
      obtain ⟨block, isBlock, same⟩ := List.mem_map.mp member
      rw [← same] at nearest
      have side := hasRow.row.sideOf_eq_splitGap isBlock fun other isOther =>
        nearest other.toRailBlock (List.mem_map_of_mem isOther)
      rw [← side, List.map_cons, positionOn, ← same]
      have lt_iff : Scalar.lt x block.toRailBlock.center = true ↔ x < block.center :=
        decide_eq_true_iff
      by_cases before : x < block.center
      · rw [Block.sideOf, if_pos before, if_pos (lt_iff.mpr before)]
        rfl
      · rw [Block.sideOf, if_neg before, if_neg (lt_iff.not.mpr before)]
        rfl

end Drawing
end LadderDiagram
