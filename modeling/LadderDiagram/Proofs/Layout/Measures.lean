import LadderDiagram.Layout.Config
import Mathlib.Algebra.Order.Ring.Rat
import Mathlib.Tactic.Linarith
import Mathlib.Tactic.Ring

/-!
# Measures of a valid configuration

In exact numbers, the check of a configuration says what its rules say: every measure is a
whole number, none is negative, the distances that have to be positive are, and so is
every size.  A branch marker fits before the first element of a rail, and an element into
its row.
-/

namespace LadderDiagram

@[simp] theorem Scalar.ofNat_rat (value : Nat) : (Scalar.ofNat value : Rat) = value := rfl

@[simp] theorem Scalar.max_rat (first second : Rat) :
    Scalar.max first second = Max.max first second := by
  rw [max_def_lt]
  rfl

/-- A whole number, as an exact one. -/
def IsWhole (value : Rat) : Prop := ∃ whole : Int, value = whole

namespace LayoutConfig

/-- A size that an element may have. -/
structure FitsRow (config : LayoutConfig Rat) (size : Size Rat) : Prop where
  width : 0 < size.width
  height : 0 < size.height
  fits : size.height ≤ config.branchSpacing

/-- The rules that a valid configuration keeps. -/
structure KeepsRules (config : LayoutConfig Rat) : Prop where
  whole : ∀ measure, IsWhole (config.measure measure)
  nonneg : ∀ measure, 0 ≤ config.measure measure
  railOffset : 0 < config.railOffset
  branchSpacing : 0 < config.branchSpacing
  element : ∀ category, config.FitsRow (config.sizeOf category)
  marker : config.FitsRow config.sizes.branchMarker
  room : config.sizes.branchMarker.width ≤ config.railOffset

theorem admits_iff {positive : Bool} {value : Rat} :
    admits positive value = true ↔ IsWhole value ∧ 0 ≤ value ∧ (positive = true → 0 < value) := by
  have whole : Scalar.isWhole value = true ↔ IsWhole value := by
    change (value.den == 1) = true ↔ _
    rw [beq_iff_eq]
    constructor
    · exact fun single => ⟨value.num, (Rat.den_eq_one_iff value).mp single |>.symm⟩
    · rintro ⟨own, rfl⟩
      exact Rat.den_intCast own
  have less : Scalar.lt 0 value = true ↔ 0 < value := decide_eq_true_iff
  have atMost : Scalar.le 0 value = true ↔ 0 ≤ value := decide_eq_true_iff
  unfold admits
  rw [Bool.and_eq_true, whole]
  cases positive with
  | true =>
      simp only [if_true, Scalar.ofNat_rat, Nat.cast_zero, less, forall_const]
      exact and_congr_right fun _ => ⟨fun above => ⟨above.le, above⟩, And.right⟩
  | false => simp [atMost]

theorem admitsSize_iff {size : Size Rat} :
    admitsSize size = true ↔
      IsWhole size.width ∧ IsWhole size.height ∧ 0 < size.width ∧ 0 < size.height := by
  unfold admitsSize
  rw [Bool.and_eq_true, admits_iff, admits_iff]
  constructor
  · rintro ⟨⟨wholeWidth, _, width⟩, ⟨wholeHeight, _, height⟩⟩
    exact ⟨wholeWidth, wholeHeight, width rfl, height rfl⟩
  · rintro ⟨wholeWidth, wholeHeight, width, height⟩
    exact ⟨⟨wholeWidth, width.le, fun _ => width⟩, ⟨wholeHeight, height.le, fun _ => height⟩⟩

variable {config : LayoutConfig Rat}

theorem keepsRules_of_isValid (valid : config.isValid = true) : config.KeepsRules := by
  unfold isValid at valid
  simp only [Bool.and_eq_true, List.all_eq_true, admitsSize_iff] at valid
  obtain ⟨⟨⟨⟨⟨⟨measures, contact⟩, coil⟩, block⟩, marker⟩, room⟩, fits⟩ := valid
  have kept (measure : Measure) := admits_iff.mp (measures measure (by cases measure <;> decide))
  have tallest : config.tallest ≤ config.branchSpacing := of_decide_eq_true fits
  simp only [LayoutConfig.tallest, Scalar.max_rat, max_le_iff] at tallest
  obtain ⟨⟨⟨contactFits, coilFits⟩, blockFits⟩, markerFits⟩ := tallest
  refine ⟨fun measure => (kept measure).1, fun measure => (kept measure).2.1,
    (kept .railOffset).2.2 rfl, (kept .branchSpacing).2.2 rfl, ?_,
    ⟨marker.2.2.1, marker.2.2.2, markerFits⟩, of_decide_eq_true room⟩
  intro category
  cases category with
  | contact => exact ⟨contact.2.2.1, contact.2.2.2, contactFits⟩
  | coil => exact ⟨coil.2.2.1, coil.2.2.2, coilFits⟩
  | block => exact ⟨block.2.2.1, block.2.2.2, blockFits⟩

theorem KeepsRules.one_le_branchSpacing (rules : config.KeepsRules) : 1 ≤ config.branchSpacing := by
  obtain ⟨spacing, isWhole⟩ := rules.whole .branchSpacing
  have positive := rules.branchSpacing
  change config.branchSpacing = _ at isWhole
  rw [isWhole] at positive ⊢
  exact_mod_cast positive

/-- Measures with which each element stands to the left of the one before it on its rail. -/
def receding : LayoutConfig Rat := { standard with elementSpacing := -200 }

example : receding.isValid = false := by decide +kernel

end LayoutConfig
end LadderDiagram
