import LadderDiagram.Proofs.Layout.Footprint

/-!
# The boxes of branches

The record of a branch has the box of all of its rails, and that of a further rail the box
of that rail alone.  The boxes of the branches on a rail begin one row below it, so a box
has a greater area than every box inside it.  Among boxes that contain a point, one that
is smaller than the other ones is the innermost.
-/

namespace LadderDiagram

variable {config : LayoutConfig Rat} {input : RungInput Rat}

/-! ### Points and boxes -/

namespace Branch

variable {record inner outer : Branch Rat} {region : Region} {x y : Rat}

section LiesIn

variable (liesIn : record.LiesIn config input region)

include liesIn

theorem LiesIn.not_contains_of_above (above : y < input.rowY config (region.top : Rat)) :
    ¬ record.contains x y = true := by
  intro contains
  linarith [(contains_iff.mp contains).2.1, liesIn.top_le]

theorem LiesIn.not_contains_of_below (below : input.rowY config (region.bottom : Rat) ≤ y) :
    ¬ record.contains x y = true := by
  intro contains
  linarith [(contains_iff.mp contains).2.2, liesIn.bottom_le]

theorem LiesIn.not_contains_of_before (before : x < region.left) :
    ¬ record.contains x y = true := by
  intro contains
  linarith [(contains_iff.mp contains).1.1, liesIn.left_le]

theorem LiesIn.not_contains_of_behind (behind : region.right < x) :
    ¬ record.contains x y = true := by
  intro contains
  linarith [(contains_iff.mp contains).1.2, liesIn.right_le]

end LiesIn

/-- The box of a branch is a region of its rung. -/
structure Fills (record : Branch Rat) (config : LayoutConfig Rat) (input : RungInput Rat)
    (region : Region) : Prop where
  startX_eq : record.startX = region.left
  endX_eq : record.endX = region.right
  startY_eq : record.startY = input.rowY config (region.top : Rat)
  endY_eq : record.endY = input.rowY config (region.bottom : Rat) - 1

theorem Fills.liesIn (fills : record.Fills config input region) :
    record.LiesIn config input region :=
  ⟨fills.startX_eq.ge, fills.endX_eq.le, fills.startY_eq.ge, fills.endY_eq.le⟩

/--
A box contains the points of the elements in its region, if they are not between the last
pixels above a row and that row.
-/
theorem Fills.contains (fills : record.Fills config input region)
    {placed : LayoutElement Rat} (liesIn : placed.LiesIn config input region)
    (inside : placed.contains x y = true)
    (snaps : ∀ row : Nat, y < input.rowY config (row : Rat) →
      y ≤ input.rowY config (row : Rat) - 1) : record.contains x y = true := by
  obtain ⟨⟨left, right⟩, top, bottom⟩ := LayoutElement.contains_iff.mp inside
  rw [contains_iff, fills.startX_eq, fills.endX_eq, fills.startY_eq, fills.endY_eq]
  exact ⟨⟨liesIn.left_le.trans left, right.le.trans liesIn.right_le⟩, liesIn.top_le.trans top,
    snaps _ (bottom.trans_le liesIn.bottom_le)⟩

theorem area_eq (record : Branch Rat) :
    record.area = (record.endX - record.startX + 1) * (record.endY - record.startY + 1) := rfl

/-- A box with a point has a smaller area than one around it that begins above it. -/
theorem area_lt_of_inside (contains : inner.contains x y = true)
    (left_le : outer.startX ≤ inner.startX) (right_le : inner.endX ≤ outer.endX)
    (top_lt : outer.startY < inner.startY) (bottom_le : inner.endY ≤ outer.endY) :
    inner.area < outer.area := by
  obtain ⟨⟨left, right⟩, top, bottom⟩ := contains_iff.mp contains
  rw [area_eq, area_eq]
  exact mul_lt_mul' (by linarith) (by linarith) (by linarith) (by linarith)

/-- A box in a region is smaller than one that fills a region which begins above it. -/
theorem LiesIn.area_lt (rules : config.KeepsRules) {whole : Region}
    (liesIn : inner.LiesIn config input region) (fills : outer.Fills config input whole)
    (left_le : whole.left ≤ region.left) (right_le : region.right ≤ whole.right)
    (top_lt : whole.top < region.top) (bottom_le : region.bottom ≤ whole.bottom)
    (contains : inner.contains x y = true) : inner.area < outer.area := by
  apply area_lt_of_inside contains
  · exact fills.startX_eq.trans_le (left_le.trans liesIn.left_le)
  · exact liesIn.right_le.trans (right_le.trans fills.endX_eq.ge)
  · exact fills.startY_eq.trans_lt
      ((input.rowY_strictMono rules top_lt).trans_le liesIn.top_le)
  · rw [fills.endY_eq]
    exact liesIn.bottom_le.trans (sub_le_sub_right (input.rowY_mono rules bottom_le) 1)

/-! ### The smallest box -/

/-- The box of a record is the smallest one of those that contain a point. -/
structure IsSmallest (records : List (Branch Rat)) (x y : Rat) (record : Branch Rat) : Prop where
  member : record ∈ records
  contains : record.contains x y = true
  least : ∀ other ∈ records, other.contains x y = true →
    other = record ∨ record.area < other.area

namespace IsSmallest

variable {records others : List (Branch Rat)}

theorem head (contains : record.contains x y = true)
    (none : ∀ other ∈ records, ¬ other.contains x y = true) :
    IsSmallest (record :: records) x y record := by
  refine ⟨List.mem_cons_self, contains, fun other member otherContains => ?_⟩
  rcases List.mem_cons.mp member with same | member
  · exact Or.inl same
  · exact absurd otherContains (none other member)

variable (smallest : IsSmallest records x y record)

include smallest

theorem cons (greater : outer.contains x y = true → record.area < outer.area) :
    IsSmallest (outer :: records) x y record := by
  refine ⟨List.mem_cons_of_mem _ smallest.member, smallest.contains,
    fun other member otherContains => ?_⟩
  rcases List.mem_cons.mp member with rfl | member
  · exact Or.inr (greater otherContains)
  · exact smallest.least other member otherContains

theorem append_left (none : ∀ other ∈ others, ¬ other.contains x y = true) :
    IsSmallest (records ++ others) x y record := by
  refine ⟨List.mem_append_left _ smallest.member, smallest.contains,
    fun other member otherContains => ?_⟩
  rcases List.mem_append.mp member with member | member
  · exact smallest.least other member otherContains
  · exact absurd otherContains (none other member)

theorem append_right (none : ∀ other ∈ others, ¬ other.contains x y = true) :
    IsSmallest (others ++ records) x y record := by
  refine ⟨List.mem_append_right _ smallest.member, smallest.contains,
    fun other member otherContains => ?_⟩
  rcases List.mem_append.mp member with member | member
  · exact absurd otherContains (none other member)
  · exact smallest.least other member otherContains

end IsSmallest

end Branch

/-! ### The records of a rail -/

section Parts

variable {site : RailSite} {position : Nat} {last : Option Rat} {id : BranchId}
  {first own : RailTree} {further others : FurtherRails} {rest : RailTree} {branch : Branch Rat}

theorem branchRecord_fills (startX : Rat) :
    (site.branchRecord config input position id startX first further).Fills config input
      ⟨startX, branchRight config startX first further, site.row + 1,
        site.row + 1 + first.rows + further.rows⟩ :=
  ⟨rfl, rfl, rfl, rfl⟩

theorem railRecord_fills (row : Nat) :
    (branch.railRecord config input position id row own).Fills config input
      ⟨branch.startX, branch.endX, row, row + own.rows⟩ :=
  ⟨rfl, rfl, rfl, rfl⟩

theorem mem_records_branch {record : Branch Rat} :
    record ∈ (RailTree.branch id first further rest).records config input site position last ↔
      record = site.branchRecord config input position id (config.itemX site.originX last) first
        further ∨
      record ∈ first.records config input
        (site.inside id (config.itemX site.originX last)) (position + 1) none ∨
      record ∈ further.records config input
        ((site.inside id (config.itemX site.originX last)).lowered first.rows)
        (site.branchRecord config input position id (config.itemX site.originX last) first
          further) (position + 1 + first.drafts.length) ∨
      record ∈ rest.records config input site
        (position + 1 + first.drafts.length + further.drafts.length + 1)
        (some (branchRight config (config.itemX site.originX last) first further)) := by
  rw [RailTree.records]
  simp only [List.mem_cons, List.mem_append]

theorem mem_records_rail {record : Branch Rat} :
    record ∈ (FurtherRails.rail id own others).records config input site branch position ↔
      record = branch.railRecord config input position id site.row own ∨
      record ∈ own.records config input (site.beside id) (position + 1) none ∨
      record ∈ others.records config input (site.lowered own.rows) branch
        (position + 1 + own.drafts.length) := by
  rw [FurtherRails.records]
  simp only [List.mem_cons, List.mem_append]

end Parts

variable (rules : config.KeepsRules)

include rules

mutual

/-- The boxes of the branches on a rail are below its row and in its columns. -/
theorem RailTree.records_liesIn (site : RailSite) (position : Nat) {last : Option Rat}
    {right : Rat} {record : Branch Rat} :
    ∀ tree : RailTree, tree.EndsBy config site.originX last right →
      record ∈ tree.records config input site position last →
      record.LiesIn config input
        ⟨config.itemX site.originX last, right, site.row + 1, site.row + tree.rows⟩
  | .nil, _, member => absurd member List.not_mem_nil
  | .instruction content rest, ends, member => by
      have restEnds : rest.EndsBy config site.originX
        (some (config.itemX site.originX last + (config.sizeOf content.category).width)) right :=
          ends
      exact (rest.records_liesIn site _ restEnds member).mono rules
        (rules.le_behind_add _ (rules.element content.category).width) (le_refl _) (le_refl _)
        (le_refl _)
  | .branch id first further rest, ends, member => by
      let startX := config.itemX site.originX last
      have restEnds : rest.EndsBy config site.originX
        (some (branchRight config startX first further)) right := ends
      have reach := rules.branchReach_le_branchRight startX first further
      have right_le := restEnds.le rules
      have rows := RailTree.branch_rows_le id first further rest
      have origin : (site.branchRecord config input position id startX first further).startX =
          startX := rfl
      rcases mem_records_branch.mp member with rfl | inFirst | inFurther | inRest
      · exact (branchRecord_fills startX).liesIn.mono rules (le_refl _) right_le (le_refl _)
          (by omega)
      · exact (first.records_liesIn (site.inside id startX) _
          (endsBy_branchReach config _ first further) inFirst).mono rules
          (le_add_of_nonneg_right rules.railOffset.le) (reach.trans right_le) (Nat.le_succ _)
          (by change site.row + 1 + first.rows ≤ _; omega)
      · exact (further.records_liesIn ((site.inside id startX).lowered first.rows) _
          origin ((le_max_right _ _).trans reach) inFurther).mono rules (le_refl _) right_le
          (by change site.row + 1 ≤ site.row + 1 + first.rows; omega)
          (by change site.row + 1 + first.rows + further.rows ≤ _; omega)
      · exact (rest.records_liesIn site _ restEnds inRest).mono rules
          ((rules.startX_le_branchRight startX first further).trans (rules.le_behind _))
          (le_refl _) (le_refl _)
          (Nat.add_le_add_left (RailTree.rest_rows_le id first further rest) _)

/-- The boxes of further rails, and of the branches on them, are in the rows of these rails. -/
theorem FurtherRails.records_liesIn (site : RailSite) (position : Nat) {branch : Branch Rat}
    {record : Branch Rat} (origin : branch.startX = site.originX) :
    ∀ rails : FurtherRails, rails.reach config site.originX ≤ branch.endX →
      record ∈ rails.records config input site branch position →
      record.LiesIn config input
        ⟨site.originX, branch.endX, site.row, site.row + rails.rows⟩
  | .nil, _, member => absurd member List.not_mem_nil
  | .rail id own others, ends, member => by
      have rows : (FurtherRails.rail id own others).rows = own.rows + others.rows := rfl
      rcases mem_records_rail.mp member with rfl | inOwn | inOthers
      · exact (railRecord_fills site.row).liesIn.mono rules origin.ge (le_refl _) (le_refl _)
          (by omega)
      · exact (own.records_liesIn (site.beside id) _
          (FurtherRails.endsBy_reach config site.originX id own others) inOwn).mono rules
          (le_add_of_nonneg_right rules.railOffset.le) ends (Nat.le_succ _)
          (by change site.row + own.rows ≤ _; omega)
      · exact (others.records_liesIn (site.lowered own.rows) _ origin
          ((le_max_right _ _).trans ends) inOthers).mono rules (le_refl _) (le_refl _)
          (Nat.le_add_right _ _) (by change site.row + own.rows + others.rows ≤ _; omega)

end

end LadderDiagram
