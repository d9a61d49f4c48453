import LadderDiagram.Drawing.Locate
import LadderDiagram.Proofs.Layout.Columns

/-!
# Regions of a rung

What stands on a rail takes some rows of its rung and some of its columns: an element its
rectangle, and the record of a branch the box of its rails.  Two elements in regions of
which one is above or before the other one have no point in common.
-/

namespace LadderDiagram

variable {config : LayoutConfig Rat} {input : RungInput Rat}

theorem Scalar.inside_iff {low value high : Rat} :
    Scalar.inside low value high = true ↔ low ≤ value ∧ value < high := by
  unfold inside
  rw [Bool.and_eq_true]
  exact and_congr decide_eq_true_iff decide_eq_true_iff

theorem Scalar.within_iff {low value high : Rat} :
    Scalar.within low value high = true ↔ low ≤ value ∧ value ≤ high := by
  unfold within
  rw [Bool.and_eq_true]
  exact and_congr decide_eq_true_iff decide_eq_true_iff

/-- Some columns of a rung, and the rows from `top` on down to `bottom`, which is below them. -/
structure Region where
  left : Rat
  right : Rat
  top : Nat
  bottom : Nat

namespace RungInput

theorem rowY_succ (config : LayoutConfig Rat) (input : RungInput Rat) (row : Nat) :
    input.rowY config ((row + 1 : Nat) : Rat) =
      input.rowY config (row : Rat) + config.branchSpacing := by
  unfold rowY
  push_cast
  ring

variable (rules : config.KeepsRules) (input)

include rules

theorem rowY_mono {row other : Nat} (le : row ≤ other) :
    input.rowY config (row : Rat) ≤ input.rowY config (other : Rat) := by
  have scaled := mul_le_mul_of_nonneg_right (Nat.cast_le (α := Rat).mpr le) rules.branchSpacing.le
  unfold rowY
  linarith

theorem rowY_strictMono {row other : Nat} (lt : row < other) :
    input.rowY config (row : Rat) < input.rowY config (other : Rat) := by
  have next := rowY_mono input rules (Nat.succ_le_of_lt lt)
  have spacing := rules.branchSpacing
  rw [Nat.succ_eq_add_one, rowY_succ] at next
  linarith

theorem le_of_rowY_le {row other : Nat}
    (le : input.rowY config (row : Rat) ≤ input.rowY config (other : Rat)) : row ≤ other :=
  not_lt.mp fun below => not_lt.mpr le (rowY_strictMono input rules below)

/-- Every row is below the top of the rung. -/
theorem le_rowY (commentLines : 0 ≤ input.commentLines) (row : Nat) :
    input.y ≤ input.rowY config (row : Rat) := by
  have padding : 0 ≤ config.rungPadding := rules.nonneg .rungPadding
  have comment := mul_nonneg commentLines (rules.nonneg .commentLineHeight)
  have rows := mul_nonneg (Nat.cast_nonneg (α := Rat) row) rules.branchSpacing.le
  change 0 ≤ input.commentLines * config.commentLineHeight at comment
  unfold rowY commentHeight
  linarith

end RungInput

/-! ### Elements -/

namespace LayoutElement

/-- The rectangle of an element is in a region of its rung. -/
structure LiesIn (placed : LayoutElement Rat) (config : LayoutConfig Rat) (input : RungInput Rat)
    (region : Region) : Prop where
  left_le : region.left ≤ placed.x
  right_le : placed.x + placed.width ≤ region.right
  top_le : input.rowY config (region.top : Rat) ≤ placed.y
  bottom_le : placed.y + placed.height ≤ input.rowY config (region.bottom : Rat)

theorem contains_iff {placed : LayoutElement Rat} {x y : Rat} :
    placed.contains x y = true ↔
      (placed.x ≤ x ∧ x < placed.x + placed.width) ∧
        placed.y ≤ y ∧ y < placed.y + placed.height := by
  unfold contains
  rw [Bool.and_eq_true, Scalar.inside_iff, Scalar.inside_iff]

/-- Two elements have no point in common. -/
def Apart (first second : LayoutElement Rat) : Prop :=
  ∀ x y, first.contains x y = true → ¬ second.contains x y = true

variable {placed other : LayoutElement Rat} {region below : Region}

theorem LiesIn.mono (rules : config.KeepsRules) {left right innerLeft innerRight : Rat}
    {top bottom innerTop innerBottom : Nat}
    (liesIn : placed.LiesIn config input ⟨innerLeft, innerRight, innerTop, innerBottom⟩)
    (left_le : left ≤ innerLeft) (right_le : innerRight ≤ right) (top_le : top ≤ innerTop)
    (bottom_le : innerBottom ≤ bottom) : placed.LiesIn config input ⟨left, right, top, bottom⟩ :=
  ⟨left_le.trans liesIn.left_le, liesIn.right_le.trans right_le,
    (input.rowY_mono rules top_le).trans liesIn.top_le,
    liesIn.bottom_le.trans (input.rowY_mono rules bottom_le)⟩

theorem LiesIn.apart_of_columns (liesIn : placed.LiesIn config input region)
    (otherLiesIn : other.LiesIn config input below) (before : region.right ≤ below.left) :
    placed.Apart other := by
  intro x y contains otherContains
  have left := (contains_iff.mp contains).1.2
  have right := (contains_iff.mp otherContains).1.1
  linarith [liesIn.right_le, otherLiesIn.left_le]

theorem LiesIn.apart_of_rows (rules : config.KeepsRules)
    (liesIn : placed.LiesIn config input region) (otherLiesIn : other.LiesIn config input below)
    (above : region.bottom ≤ below.top) : placed.Apart other := by
  intro x y contains otherContains
  have upper := (contains_iff.mp contains).2.2
  have lower := (contains_iff.mp otherContains).2.1
  linarith [liesIn.bottom_le, otherLiesIn.top_le, input.rowY_mono rules above]

end LayoutElement

theorem RailSite.put_liesIn (rules : config.KeepsRules) (input : RungInput Rat)
    (site : RailSite) (position : Nat) (draft : Draft) (x : Rat) :
    (site.put config input position draft x).LiesIn config input
      ⟨x, x + (config.draftSize draft).width, site.row, site.row + 1⟩ := by
  refine ⟨le_refl _, le_refl _, le_refl _, ?_⟩
  rw [RungInput.rowY_succ]
  exact add_le_add_right (rules.draftSize draft).fits _

/-! ### Branches -/

namespace Branch

/-- The box of a branch, which ends one short of the row below it, is in a region of its rung. -/
structure LiesIn (record : Branch Rat) (config : LayoutConfig Rat) (input : RungInput Rat)
    (region : Region) : Prop where
  left_le : region.left ≤ record.startX
  right_le : record.endX ≤ region.right
  top_le : input.rowY config (region.top : Rat) ≤ record.startY
  bottom_le : record.endY ≤ input.rowY config (region.bottom : Rat) - 1

theorem contains_iff {record : Branch Rat} {x y : Rat} :
    record.contains x y = true ↔
      (record.startX ≤ x ∧ x ≤ record.endX) ∧ record.startY ≤ y ∧ y ≤ record.endY := by
  unfold contains
  rw [Bool.and_eq_true, Scalar.within_iff, Scalar.within_iff]

variable {record : Branch Rat}

theorem LiesIn.mono (rules : config.KeepsRules) {left right innerLeft innerRight : Rat}
    {top bottom innerTop innerBottom : Nat}
    (liesIn : record.LiesIn config input ⟨innerLeft, innerRight, innerTop, innerBottom⟩)
    (left_le : left ≤ innerLeft) (right_le : innerRight ≤ right) (top_le : top ≤ innerTop)
    (bottom_le : innerBottom ≤ bottom) : record.LiesIn config input ⟨left, right, top, bottom⟩ :=
  ⟨left_le.trans liesIn.left_le, liesIn.right_le.trans right_le,
    (input.rowY_mono rules top_le).trans liesIn.top_le,
    liesIn.bottom_le.trans (sub_le_sub_right (input.rowY_mono rules bottom_le) 1)⟩

end Branch

end LadderDiagram
