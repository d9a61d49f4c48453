import LadderDiagram.Drawing.Locate
import LadderDiagram.Proofs.Layout.Measures
import Mathlib.Algebra.Order.Archimedean.Basic
import Mathlib.Data.Rat.Floor

/-!
# Blocks in a row

What stands on a rail is a row of blocks.  Each begins at the gap at which the one before it
ends, and its centre is further to the right.  So a place splits the row at one gap, and the
search for the block that is nearest to the place finds this gap.
-/

namespace LadderDiagram

/-- What stands on a rail from one gap to another, and where its middle is. -/
structure Block where
  center : Rat
  start : Nat
  finish : Nat

/-- Blocks from a gap on, one behind the other, with their centres at least one unit apart. -/
inductive Row : Nat → List Block → Prop
  | nil (start : Nat) : Row start []
  | cons {block : Block} {rest : List Block} (nonempty : block.start < block.finish)
      (ascends : ∀ next ∈ rest, block.center + 1 ≤ next.center)
      (behind : Row block.finish rest) : Row block.start (block :: rest)

/-- The gap of a row before its first block with a centre right of `x`. -/
def splitGap (x : Rat) (start : Nat) : List Block → Nat
  | [] => start
  | block :: rest => if x < block.center then start else splitGap x block.finish rest

namespace Row

variable {start : Nat} {blocks : List Block} {block : Block} {x y : Rat}

theorem le_splitGap (row : Row start blocks) (x : Rat) : start ≤ splitGap x start blocks := by
  induction row with
  | nil start => exact le_refl start
  | cons nonempty _ _ ih =>
      unfold splitGap
      split
      next => exact le_refl _
      next => exact nonempty.le.trans ih

/-- A block is before the gap if its centre is not right of the place. -/
theorem finish_le_splitGap (row : Row start blocks) (member : block ∈ blocks)
    (le : block.center ≤ x) : block.finish ≤ splitGap x start blocks := by
  induction row with
  | nil => exact absurd member List.not_mem_nil
  | @cons first rest nonempty ascends behind ih =>
      have passes : ¬ x < first.center := by
        rcases List.mem_cons.mp member with rfl | member
        · exact not_lt.mpr le
        · have next := ascends block member
          linarith
      rw [splitGap, if_neg passes]
      rcases List.mem_cons.mp member with rfl | member
      · exact behind.le_splitGap x
      · exact ih member

theorem start_le (row : Row start blocks) (member : block ∈ blocks) : start ≤ block.start := by
  induction row with
  | nil => exact absurd member List.not_mem_nil
  | cons nonempty _ _ ih =>
      rcases List.mem_cons.mp member with rfl | member
      · exact le_refl _
      · exact nonempty.le.trans (ih member)

/-- A block is behind the gap if its centre is right of the place. -/
theorem splitGap_le_start (row : Row start blocks) (member : block ∈ blocks)
    (lt : x < block.center) : splitGap x start blocks ≤ block.start := by
  induction row with
  | nil => exact absurd member List.not_mem_nil
  | @cons first rest nonempty ascends behind ih =>
      unfold splitGap
      split
      next => exact (Row.cons nonempty ascends behind).start_le member
      next passes =>
        rcases List.mem_cons.mp member with rfl | member
        · exact absurd lt passes
        · exact ih member

theorem splitGap_mono (row : Row start blocks) (le : x ≤ y) :
    splitGap x start blocks ≤ splitGap y start blocks := by
  induction row with
  | nil start => exact le_refl start
  | @cons first rest nonempty ascends behind ih =>
      by_cases before : x < first.center
      · rw [splitGap, if_pos before]
        exact (Row.cons nonempty ascends behind).le_splitGap y
      · rw [splitGap, splitGap, if_neg before, if_neg (not_lt.mpr ((not_lt.mp before).trans le))]
        exact ih

/-! ### Which gaps are found -/

/-- The gaps of a row are its start and those behind its blocks. -/
def IsGap (start : Nat) (blocks : List Block) (gap : Nat) : Prop :=
  gap = start ∨ ∃ block ∈ blocks, block.finish = gap

theorem isGap_cons {first : Block} {rest : List Block} {gap : Nat} :
    IsGap start (first :: rest) gap ↔ gap = start ∨ IsGap first.finish rest gap := by
  unfold IsGap
  rw [List.exists_mem_cons_iff]
  exact or_congr_right (or_congr_left eq_comm)

theorem isGap_start (row : Row start blocks) (member : block ∈ blocks) :
    IsGap start blocks block.start := by
  induction row with
  | nil => exact absurd member List.not_mem_nil
  | cons _ _ _ ih =>
      rcases List.mem_cons.mp member with rfl | member
      · exact Or.inl rfl
      · exact isGap_cons.mpr (Or.inr (ih member))

theorem isGap_splitGap (x : Rat) (start : Nat) (blocks : List Block) :
    IsGap start blocks (splitGap x start blocks) := by
  induction blocks generalizing start with
  | nil => exact Or.inl rfl
  | cons first rest ih =>
      unfold splitGap
      split
      next => exact Or.inl rfl
      next => exact isGap_cons.mpr (Or.inr (ih first.finish))

/-- Some place is left of all centres of a row. -/
theorem exists_left (row : Row start blocks) :
    ∃ low : Rat, ∀ block ∈ blocks, low + 1 ≤ block.center := by
  cases row with
  | nil => exact ⟨0, fun _ member => absurd member List.not_mem_nil⟩
  | @cons first _ _ ascends _ =>
      refine ⟨first.center - 1, fun block member => ?_⟩
      rcases List.mem_cons.mp member with rfl | member
      · linarith
      · have later := ascends block member
        linarith

/-- Every gap of a row is found at a whole number that is not left of some place. -/
theorem exists_splitGap_eq (row : Row start blocks) {gap : Nat} (isGap : IsGap start blocks gap)
    {low : Rat} (left : ∀ block ∈ blocks, low + 1 ≤ block.center) :
    ∃ value : Int, low ≤ value ∧ splitGap value start blocks = gap := by
  induction row generalizing low with
  | nil start =>
      obtain rfl : gap = start := isGap.resolve_right fun ⟨_, member, _⟩ =>
        List.not_mem_nil member
      exact ⟨⌈low⌉, Int.le_ceil low, rfl⟩
  | @cons first rest nonempty ascends behind ih =>
      have above := left first List.mem_cons_self
      rcases isGap_cons.mp isGap with rfl | isGap
      · refine ⟨⌈low⌉, Int.le_ceil low, ?_⟩
        rw [splitGap, if_pos ((Int.ceil_lt_add_one low).trans_le above)]
      · obtain ⟨value, le, found⟩ := ih isGap ascends
        refine ⟨value, by linarith, ?_⟩
        rw [splitGap, if_neg (not_lt.mpr le)]
        exact found

end Row

/-! ### The nearest block -/

theorem Scalar.distance_rat (first second : Rat) :
    Scalar.distance first second = |first - second| := by
  change (if decide (first < second) = true then second - first else first - second) = _
  by_cases less : first < second
  · rw [if_pos (decide_eq_true less), abs_sub_comm, abs_of_pos (sub_pos.mpr less)]
  · rw [if_neg (by simpa using less), abs_of_nonneg (sub_nonneg.mpr (not_lt.mp less))]

namespace Drawing

theorem nearestBlock_mem {α : Type} [Scalar α] (x : α) (best : RailBlock α)
    (blocks : List (RailBlock α)) : nearestBlock x best blocks ∈ best :: blocks := by
  induction blocks generalizing best with
  | nil => exact List.mem_cons_self
  | cons next rest ih =>
      rw [nearestBlock, List.foldl_cons]
      split
      next => exact List.mem_cons_of_mem _ (ih next)
      next =>
        rcases List.mem_cons.mp (ih best) with same | member
        · exact List.mem_cons.mpr (Or.inl same)
        · exact List.mem_cons_of_mem _ (List.mem_cons_of_mem _ member)

theorem nearestBlock_le (x : Rat) (best : RailBlock Rat) (blocks : List (RailBlock Rat)) :
    ∀ block ∈ best :: blocks,
      |x - (nearestBlock x best blocks).center| ≤ |x - block.center| := by
  induction blocks generalizing best with
  | nil =>
      intro block member
      rw [List.mem_singleton.mp member]
      exact le_refl _
  | cons next rest ih =>
      intro block member
      rw [nearestBlock, List.foldl_cons]
      have closer : Scalar.lt (Scalar.distance x next.center) (Scalar.distance x best.center) =
          true ↔ |x - next.center| < |x - best.center| := by
        rw [Scalar.distance_rat, Scalar.distance_rat]
        exact decide_eq_true_iff
      split
      next less =>
        have chosen := ih next next List.mem_cons_self
        rcases List.mem_cons.mp member with rfl | member
        · exact chosen.trans (closer.mp less).le
        · exact ih next block member
      next notLess =>
        have chosen := ih best best List.mem_cons_self
        rcases List.mem_cons.mp member with rfl | member
        · exact chosen
        rcases List.mem_cons.mp member with rfl | member
        · exact chosen.trans (not_lt.mp (closer.not.mp notLess))
        · exact ih best block (List.mem_cons_of_mem _ member)

end Drawing

/-- The gap before or behind a block, on the side of it on which `x` is. -/
def Block.sideOf (block : Block) (x : Rat) : Nat :=
  if x < block.center then block.start else block.finish

/-- The side of the nearest block of a row is the gap at which the place splits the row. -/
theorem Row.sideOf_eq_splitGap {start : Nat} {blocks : List Block} {block : Block} {x : Rat}
    (row : Row start blocks) (member : block ∈ blocks)
    (nearest : ∀ other ∈ blocks, |x - block.center| ≤ |x - other.center|) :
    block.sideOf x = splitGap x start blocks := by
  induction row with
  | nil => exact absurd member List.not_mem_nil
  | @cons first rest nonempty ascends behind ih =>
      have nearFirst := nearest first List.mem_cons_self
      have nearRest : ∀ other ∈ rest, |x - block.center| ≤ |x - other.center| :=
        fun other isOther => nearest other (List.mem_cons_of_mem _ isOther)
      unfold splitGap
      split
      next before =>
        -- Left of the first centre, every other block is further away than the first one.
        rcases List.mem_cons.mp member with rfl | member
        · exact if_pos before
        · have further := ascends block member
          rw [abs_of_neg (by linarith), abs_of_neg (by linarith)] at nearFirst
          linarith
      next passes =>
        rcases List.mem_cons.mp member with rfl | member
        · -- Right of it, no later block has its centre left of the place, or it would be nearer.
          rw [Block.sideOf, if_neg passes]
          cases rest with
          | nil => rfl
          | cons next others =>
              have further := ascends next List.mem_cons_self
              have near := nearRest next List.mem_cons_self
              have before : x < next.center := by
                by_contra behindNext
                rw [abs_of_nonneg (by linarith), abs_of_nonneg (by linarith)] at near
                linarith
              rw [splitGap, if_pos before]
        · exact ih member nearRest

end LadderDiagram
