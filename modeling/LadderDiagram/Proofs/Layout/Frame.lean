import LadderDiagram.Proofs.Layout.Wiring

/-!
# The frame of a rung

A rung is drawn within its band and between its two power rails, at some distance from these but
for the wires.  What a row holds is above the next row, also its wire, which is not further below
the top of the row than a contact is high.
-/

namespace LadderDiagram

/-- A part of a drawing, between two columns and two heights. -/
structure Frame where
  left : Rat
  right : Rat
  top : Rat
  bottom : Rat

/-- One part of a drawing is a part of another one. -/
structure Frame.Within (inner outer : Frame) : Prop where
  left_le : outer.left ≤ inner.left
  right_le : inner.right ≤ outer.right
  top_le : outer.top ≤ inner.top
  bottom_le : inner.bottom ≤ outer.bottom

theorem Frame.Within.trans {inner middle outer : Frame} (within : inner.Within middle)
    (further : middle.Within outer) : inner.Within outer :=
  ⟨further.left_le.trans within.left_le, within.right_le.trans further.right_le,
    further.top_le.trans within.top_le, within.bottom_le.trans further.bottom_le⟩

/-- The rectangle of an element is in a part of a drawing. -/
structure LayoutElement.IsInside (placed : LayoutElement Rat) (frame : Frame) : Prop where
  left_le : frame.left ≤ placed.x
  right_le : placed.x + placed.width ≤ frame.right
  top_le : frame.top ≤ placed.y
  bottom_le : placed.y + placed.height ≤ frame.bottom

/-- The box of a branch, with its last column and row, is in a part of a drawing. -/
structure Branch.IsInside (branch : Branch Rat) (frame : Frame) : Prop where
  left_le : frame.left ≤ branch.startX
  startX_le : branch.startX ≤ branch.endX
  right_le : branch.endX ≤ frame.right
  top_le : frame.top ≤ branch.startY
  startY_le : branch.startY ≤ branch.endY
  bottom_lt : branch.endY < frame.bottom

/-- Both ends of a wire are in a part of a drawing, or at its edges. -/
structure WireSegment.IsInside (segment : WireSegment Rat) (frame : Frame) : Prop where
  x1 : frame.left ≤ segment.x1 ∧ segment.x1 ≤ frame.right
  x2 : frame.left ≤ segment.x2 ∧ segment.x2 ≤ frame.right
  y1 : frame.top ≤ segment.y1 ∧ segment.y1 ≤ frame.bottom
  y2 : frame.top ≤ segment.y2 ∧ segment.y2 ≤ frame.bottom

/-- The elements and the boxes of a rung are in one part of a drawing, and its wires in another. -/
structure LayoutResult.IsFramed (layout : LayoutResult Rat) (config : LayoutConfig Rat)
    (items wires : Frame) : Prop where
  elements : ∀ placed ∈ layout.elements, placed.IsInside items
  branches : ∀ branch ∈ layout.branches, branch.IsInside items
  wires : ∀ segment ∈ layout.wires config, segment.IsInside wires

section Within

variable {inner outer : Frame} (within : inner.Within outer)

include within

theorem LayoutElement.IsInside.mono {placed : LayoutElement Rat} (inside : placed.IsInside inner) :
    placed.IsInside outer :=
  ⟨within.left_le.trans inside.left_le, inside.right_le.trans within.right_le,
    within.top_le.trans inside.top_le, inside.bottom_le.trans within.bottom_le⟩

theorem Branch.IsInside.mono {branch : Branch Rat} (inside : branch.IsInside inner) :
    branch.IsInside outer :=
  ⟨within.left_le.trans inside.left_le, inside.startX_le, inside.right_le.trans within.right_le,
    within.top_le.trans inside.top_le, inside.startY_le, inside.bottom_lt.trans_le within.bottom_le⟩

theorem WireSegment.IsInside.mono {segment : WireSegment Rat} (inside : segment.IsInside inner) :
    segment.IsInside outer :=
  ⟨⟨within.left_le.trans inside.x1.1, inside.x1.2.trans within.right_le⟩,
    ⟨within.left_le.trans inside.x2.1, inside.x2.2.trans within.right_le⟩,
    ⟨within.top_le.trans inside.y1.1, inside.y1.2.trans within.bottom_le⟩,
    ⟨within.top_le.trans inside.y2.1, inside.y2.2.trans within.bottom_le⟩⟩

end Within

theorem LayoutResult.IsFramed.mono {layout : LayoutResult Rat} {config : LayoutConfig Rat}
    {items wires outerItems outerWires : Frame} (framed : layout.IsFramed config items wires)
    (itemsWithin : items.Within outerItems) (wiresWithin : wires.Within outerWires) :
    layout.IsFramed config outerItems outerWires :=
  ⟨fun placed member => (framed.elements placed member).mono itemsWithin,
    fun branch member => (framed.branches branch member).mono itemsWithin,
    fun segment member => (framed.wires segment member).mono wiresWithin⟩

namespace LayoutResult

/-- The band of a rung between its power rails. -/
def frame (layout : LayoutResult Rat) (config : LayoutConfig Rat) : Frame :=
  ⟨config.leftRailX, layout.rightRailX, layout.y, layout.y + layout.height⟩

/-- The part of a band in which elements may stand. -/
def itemFrame (layout : LayoutResult Rat) (config : LayoutConfig Rat) : Frame :=
  ⟨config.leftRailX + config.railOffset, layout.rightRailX - config.railOffset, layout.y,
    layout.y + layout.height⟩

end LayoutResult

variable {config : LayoutConfig Rat} {input : RungInput Rat}

/-! ### The wires of rows -/

/-- Half of a length, as a whole number, is not more than the length. -/
theorem Scalar.round_half_mem {length : Rat} (positive : 0 < length) :
    0 ≤ Scalar.round (Scalar.half length) ∧ Scalar.round (Scalar.half length) ≤ length := by
  have below : (⌊length / 2 + 1 / 2⌋ : Rat) ≤ length / 2 + 1 / 2 := Int.floor_le _
  change 0 ≤ (⌊length / 2 + 1 / 2⌋ : Rat) ∧ (⌊length / 2 + 1 / 2⌋ : Rat) ≤ length
  refine ⟨Int.cast_nonneg (Int.floor_nonneg.mpr (by positivity)), ?_⟩
  by_cases least : 1 ≤ length
  · linarith
  · -- Half of what is shorter than one unit is rounded to nothing.
    have none : ⌊length / 2 + 1 / 2⌋ < 1 := Int.floor_lt.mpr (by push_cast; linarith)
    exact (Int.cast_nonpos.mpr (Int.lt_add_one_iff.mp none)).trans positive.le

/-- The wire of a row is in this row. -/
theorem LayoutConfig.KeepsRules.wireOffset_mem (rules : config.KeepsRules) :
    0 ≤ LayoutResult.wireOffset config ∧ LayoutResult.wireOffset config ≤ config.branchSpacing :=
  have ⟨nonneg, le_height⟩ := Scalar.round_half_mem (rules.element .contact).height
  ⟨nonneg, le_height.trans (rules.element .contact).fits⟩

/-- The wire of a row of a rung is in its band. -/
theorem RailTree.wireY_mem (rules : config.KeepsRules) (commentLines : 0 ≤ input.commentLines)
    (tree : RailTree) {row : Nat} (within : row < tree.rows) :
    input.y ≤ input.rowY config (row : Rat) + LayoutResult.wireOffset config ∧
      input.rowY config (row : Rat) + LayoutResult.wireOffset config ≤
        input.y + (tree.layout config input).height := by
  obtain ⟨nonneg, le_spacing⟩ := rules.wireOffset_mem
  have starts := input.le_rowY rules commentLines row
  have ends := input.rowY_le_bottom rules tree within
  rw [Nat.succ_eq_add_one, RungInput.rowY_succ] at ends
  constructor <;> linarith

/-! ### Boxes -/

mutual

/-- The box of a branch takes some columns and some rows, with the rail itself in the first row. -/
theorem RailTree.exists_fills (rules : config.KeepsRules) (site : RailSite) (position : Nat)
    (last : Option Rat) {record : Branch Rat} :
    ∀ tree : RailTree, record ∈ tree.records config input site position last →
      ∃ region, region.left ≤ region.right ∧ region.top < region.bottom ∧
        record.Fills config input region ∧ record.branchY = input.rowY config (region.top : Rat)
  | .nil, member => absurd member List.not_mem_nil
  | .instruction _ rest, member => rest.exists_fills rules site _ _ member
  | .branch id first further rest, member => by
      have wide := rules.startX_le_branchRight (config.itemX site.originX last) first further
      rcases mem_records_branch.mp member with rfl | inFirst | inFurther | inRest
      · exact ⟨_, wide, Nat.lt_add_right _ (Nat.lt_add_of_pos_right first.one_le_rows),
          branchRecord_fills _, rfl⟩
      · exact first.exists_fills rules _ _ _ inFirst
      · exact further.exists_fills rules _ _ wide inFurther
      · exact rest.exists_fills rules site _ _ inRest

theorem FurtherRails.exists_fills (rules : config.KeepsRules) (site : RailSite)
    {branch : Branch Rat} (position : Nat) (wide : branch.startX ≤ branch.endX)
    {record : Branch Rat} :
    ∀ rails : FurtherRails, record ∈ rails.records config input site branch position →
      ∃ region, region.left ≤ region.right ∧ region.top < region.bottom ∧
        record.Fills config input region ∧ record.branchY = input.rowY config (region.top : Rat)
  | .nil, member => absurd member List.not_mem_nil
  | .rail id own others, member => by
      rcases mem_records_rail.mp member with rfl | inOwn | inOthers
      · exact ⟨_, wide, Nat.lt_add_of_pos_right own.one_le_rows, railRecord_fills _, rfl⟩
      · exact own.exists_fills rules _ _ _ inOwn
      · exact others.exists_fills rules _ _ wide inOthers

end

/-- Behind the last item of a rung there is room up to the right power rail. -/
theorem RailTree.endsBy_rightRail (input : RungInput Rat) (tree : RailTree) :
    tree.EndsBy config config.leftRailX none
      ((tree.layout config input).rightRailX - config.railOffset) := by
  intro edge isLast
  have isEdge : (tree.layout config input).rightEdge = edge := by
    rw [RailTree.layout, Option.mem_def.mp isLast]
    rfl
  have le : (tree.layout config input).rightEdge + config.railOffset ≤
      (tree.layout config input).rightRailX := le_max_right _ _
  linarith

section Layout

variable (rules : config.KeepsRules) (commentLines : 0 ≤ input.commentLines) {tree : RailTree}

include rules commentLines

theorem isInside_of_mem_elements {placed : LayoutElement Rat}
    (member : placed ∈ (tree.layout config input).elements) :
    placed.IsInside ((tree.layout config input).itemFrame config) := by
  have liesIn :=
    tree.placed_liesIn rules (.main config) 0 (tree.endsBy_rightRail input) member
  have bottom : (RailSite.main config).row + tree.rows ≤ tree.rows := (Nat.zero_add _).le
  exact ⟨liesIn.left_le, liesIn.right_le, (input.le_rowY rules commentLines 0).trans liesIn.top_le,
    liesIn.bottom_le.trans (input.rowY_le_bottom rules tree bottom)⟩

/-- The box of a branch is in the frame of the elements, and its rail on one of the rows. -/
theorem isInside_of_mem_branches {branch : Branch Rat}
    (member : branch ∈ (tree.layout config input).branches) :
    branch.IsInside ((tree.layout config input).itemFrame config) ∧
      ∃ row < tree.rows, branch.branchY = input.rowY config (row : Rat) := by
  have liesIn := tree.records_liesIn rules (.main config) 0 (tree.endsBy_rightRail input) member
  obtain ⟨region, wide, high, fills, onRow⟩ := tree.exists_fills rules _ _ _ member
  have bottom_le : region.bottom ≤ tree.rows := by
    have within := liesIn.bottom_le
    rw [fills.endY_eq, sub_le_sub_iff_right] at within
    exact (input.le_of_rowY_le rules within).trans (Nat.zero_add _).le
  have ends := input.rowY_le_bottom rules tree bottom_le
  have next := input.rowY_mono rules (Nat.succ_le_of_lt high)
  have spacing := rules.one_le_branchSpacing
  rw [Nat.succ_eq_add_one, RungInput.rowY_succ] at next
  refine ⟨⟨liesIn.left_le, ?_, liesIn.right_le, ?_, ?_, ?_⟩, _, high.trans_le bottom_le, onRow⟩
  · rw [fills.startX_eq, fills.endX_eq]
    exact wide
  · rw [fills.startY_eq]
    exact input.le_rowY rules commentLines region.top
  · rw [fills.startY_eq, fills.endY_eq]
    linarith
  · rw [fills.endY_eq]
    change _ < input.y + (tree.layout config input).height
    linarith

end Layout

/-! ### Wires -/

/-- The way along a rail is in a part of a drawing. -/
structure RailRun.IsInside (run : RailRun Rat) (frame : Frame) : Prop where
  left_le : frame.left ≤ run.startX
  startX_le : run.startX ≤ run.endX
  right_le : run.endX ≤ frame.right
  wireY : frame.top ≤ run.wireY ∧ run.wireY ≤ frame.bottom

theorem RailRun.IsInside.startX_mem {run : RailRun Rat} {frame : Frame}
    (inside : run.IsInside frame) : frame.left ≤ run.startX ∧ run.startX ≤ frame.right :=
  ⟨inside.left_le, inside.startX_le.trans inside.right_le⟩

theorem RailRun.IsInside.endX_mem {run : RailRun Rat} {frame : Frame}
    (inside : run.IsInside frame) : frame.left ≤ run.endX ∧ run.endX ≤ frame.right :=
  ⟨inside.left_le.trans inside.startX_le, inside.right_le⟩

namespace LayoutResult

variable {layout : LayoutResult Rat} {segment : WireSegment Rat}

theorem eq_of_mem_wire {x1 y1 x2 y2 : Rat} (member : segment ∈ layout.wire x1 y1 x2 y2) :
    segment = ⟨layout.rungNumber, x1, y1, x2, y2⟩ := by
  rw [wire_eq] at member
  split at member
  · cases member
  · exact List.mem_singleton.mp member

/-- The wires along a rail are where the way along the rail is. -/
theorem IsTiled.isInside_of_mem {run : RailRun Rat} {frame : Frame} (tiled : layout.IsTiled run)
    (inside : run.IsInside frame) (member : segment ∈ layout.railWires run) :
    segment.IsInside frame := by
  obtain ⟨⟨starts, forward, ends⟩, first, second⟩ := tiled.of_mem_railWires member
  have left_le : frame.left ≤ segment.x1 := inside.left_le.trans starts
  have right_le : segment.x2 ≤ frame.right := ends.trans inside.right_le
  exact ⟨⟨left_le, forward.le.trans right_le⟩, ⟨left_le.trans forward.le, right_le⟩,
    first ▸ inside.wireY, second ▸ inside.wireY⟩

end LayoutResult

section Wires

variable (rules : config.KeepsRules) (commentLines : 0 ≤ input.commentLines) {tree : RailTree}

include rules

theorem itemFrame_within (layout : LayoutResult Rat) :
    (layout.itemFrame config).Within (layout.frame config) :=
  ⟨le_add_of_nonneg_right rules.railOffset.le, sub_le_self _ rules.railOffset.le, le_refl _,
    le_refl _⟩

include commentLines

/-- Every rail of a rung is in the frame of the rung. -/
theorem isInside_of_hasRun (distinct : (openedIds tree.drafts).Nodup) {rail : Option BranchId}
    {run : RailRun Rat} (hasRun : (tree.layout config input).HasRun config rail run) :
    run.IsInside ((tree.layout config input).frame config) := by
  obtain ⟨pieces, along, _⟩ := (isTiled_and_isLevel rules distinct hasRun).1
  have startX_le := along.leads.le
  cases hasRun with
  | main =>
      have wireY := tree.wireY_mem rules commentLines tree.one_le_rows
      exact ⟨le_refl _, startX_le, le_refl _, wireY_mainRun ▸ wireY⟩
  | @branch record member =>
      obtain ⟨inside, row, within, onRow⟩ := isInside_of_mem_branches rules commentLines member
      have framed := inside.mono (itemFrame_within rules _)
      have wireY : ((tree.layout config input).branchRun config record).wireY =
          input.rowY config (row : Rat) + LayoutResult.wireOffset config :=
        congrArg (· + LayoutResult.wireOffset config) onRow
      refine ⟨framed.left_le, startX_le, ?_, wireY ▸ tree.wireY_mem rules commentLines within⟩
      exact (sub_le_self _ rules.marker.width.le).trans framed.right_le

/-- All wires of a rung are in its frame. -/
theorem isInside_of_mem_wires (distinct : (openedIds tree.drafts).Nodup)
    {segment : WireSegment Rat} (member : segment ∈ (tree.layout config input).wires config) :
    segment.IsInside ((tree.layout config input).frame config) := by
  have ofRun {rail : Option BranchId} {run : RailRun Rat}
      (hasRun : (tree.layout config input).HasRun config rail run) :=
    isInside_of_hasRun rules commentLines distinct hasRun
  have main := ofRun .main
  have band : input.y ≤ input.y + (tree.layout config input).height :=
    main.wireY.1.trans main.wireY.2
  have wired : (tree.layout config input).IsWired config tree.drafts :=
    isWired_layout rules distinct
  rw [LayoutResult.wires_eq, List.mem_append, List.mem_append] at member
  rcases member with (isPower | onRun) | isDrop
  · rcases List.mem_append.mp isPower with isLeft | isRight
    · rw [LayoutResult.eq_of_mem_wire isLeft]
      exact ⟨main.startX_mem, main.startX_mem, ⟨le_refl _, band⟩, ⟨band, le_refl _⟩⟩
    · rw [LayoutResult.eq_of_mem_wire isRight]
      exact ⟨main.endX_mem, main.endX_mem, ⟨le_refl _, band⟩, ⟨band, le_refl _⟩⟩
  · obtain ⟨run, isRun, member⟩ := List.mem_flatMap.mp onRun
    obtain ⟨rail, hasRun⟩ := LayoutResult.exists_hasRun_of_mem_runs isRun
    exact (wired.tiled rail run hasRun).isInside_of_mem (ofRun hasRun) member
  · -- A wire at the side of a branch leads from the run above the branch to its lowest one.
    obtain ⟨branch, isWhole, member⟩ := List.mem_flatMap.mp isDrop
    obtain ⟨opening, closing, outer, bottom, connects⟩ := wired.connected branch isWhole
    have isRecord := (LayoutResult.mem_wholeBranches.mp isWhole).1
    obtain ⟨startX_eq, endX_eq, _, _⟩ := connects.rails branch isRecord (.inl rfl)
    obtain ⟨lowest, isLowest, _, bottom_eq⟩ := connects.lowest
    have own := ofRun (.branch isRecord)
    have upper := (ofRun connects.standsOn).wireY
    have lower := bottom_eq ▸ (ofRun (.branch isLowest)).wireY
    rw [connects.drops, ← startX_eq, ← endX_eq, List.mem_pair] at member
    rcases member with rfl | rfl
    · exact ⟨own.startX_mem, own.startX_mem, upper, lower⟩
    · exact ⟨own.endX_mem, own.endX_mem, upper, lower⟩

/-- A rung is drawn in its frame, with its elements and its boxes away from its power rails. -/
theorem RailTree.isFramed (distinct : (openedIds tree.drafts).Nodup) :
    (tree.layout config input).IsFramed config ((tree.layout config input).itemFrame config)
      ((tree.layout config input).frame config) :=
  ⟨fun _ member => isInside_of_mem_elements rules commentLines member,
    fun _ member => (isInside_of_mem_branches rules commentLines member).1,
    fun _ member => isInside_of_mem_wires rules commentLines distinct member⟩

end Wires

end LadderDiagram
