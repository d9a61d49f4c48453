import LadderDiagram.Proofs.Layout.Boxes

/-!
# Rails one below the other

The boxes of the further rails of a branch stand one below the other, each from its own row
to one short of the row of the next one, and the last one down to the bottom of the branch.
Between the end of a box and the row of the next one there is a strip that is in neither.
-/

namespace LadderDiagram

variable {config : LayoutConfig Rat} {input : RungInput Rat}

namespace Branch

/-- The boxes of some rails stand one below the other, from `top` to the bottom of a branch. -/
inductive Stacks (branch : Branch Rat) : Rat → List (Branch Rat) → Prop
  | nil {top : Rat} (bottom : top = branch.endY + 1) : branch.Stacks top []
  | cons {top next : Rat} {rail : Branch Rat} {rest : List (Branch Rat)}
      (startX_eq : rail.startX = branch.startX) (endX_eq : rail.endX = branch.endX)
      (branchY_eq : rail.branchY = top) (startY_eq : rail.startY = top)
      (endY_eq : rail.endY = next - 1) (lower : top < next) (others : branch.Stacks next rest) :
      branch.Stacks top (rail :: rest)

variable {branch rail : Branch Rat} {rails : List (Branch Rat)} {top x y : Rat}

namespace Stacks

variable (stacked : branch.Stacks top rails)

include stacked

theorem top_le : top ≤ branch.endY + 1 := by
  induction stacked with
  | nil bottom => exact bottom.le
  | cons _ _ _ _ _ lower _ ih => exact lower.le.trans ih

theorem branchY_eq_of_head (stands : rails[0]? = some rail) : rail.branchY = top := by
  cases stacked with
  | nil _ => cases stands
  | cons _ _ branchY_eq _ _ _ _ =>
      cases stands
      exact branchY_eq

theorem branchY_eq_startY (member : rail ∈ rails) : rail.branchY = rail.startY := by
  induction stacked with
  | nil _ => exact absurd member List.not_mem_nil
  | cons _ _ branchY_eq startY_eq _ _ _ ih =>
      rcases List.mem_cons.mp member with rfl | member
      · exact branchY_eq.trans startY_eq.symm
      · exact ih member

theorem le_startY (member : rail ∈ rails) : top ≤ rail.startY := by
  induction stacked with
  | nil _ => exact absurd member List.not_mem_nil
  | cons _ _ _ startY_eq _ lower _ ih =>
      rcases List.mem_cons.mp member with rfl | member
      · exact startY_eq.ge
      · exact lower.le.trans (ih member)

/-- Each of the rails has a smaller box than the branch, which begins above them. -/
theorem area_lt (member : rail ∈ rails) (above : branch.startY < top)
    (contains : rail.contains x y = true) : rail.area < branch.area := by
  induction stacked with
  | nil _ => exact absurd member List.not_mem_nil
  | cons startX_eq endX_eq _ startY_eq endY_eq lower others ih =>
      rcases List.mem_cons.mp member with rfl | member
      · have bottom := others.top_le
        exact area_lt_of_inside contains startX_eq.ge endX_eq.le (startY_eq ▸ above)
          (by linarith)
      · exact ih member (above.trans lower)

/-- A rail with another one below it ends just above that one. -/
theorem endY_eq_of_next {place : Nat} {below : Branch Rat} (stands : rails[place]? = some rail)
    (next : rails[place + 1]? = some below) : rail.endY = below.branchY - 1 := by
  induction stacked generalizing place with
  | nil _ => cases stands
  | cons _ _ _ _ endY_eq _ others ih =>
      cases place with
      | succ before => exact ih stands next
      | zero =>
          cases stands
          cases others with
          | nil _ => cases next
          | cons _ _ branchY_eq _ _ _ _ =>
              cases next
              rw [endY_eq, branchY_eq]

/-- A point in the columns of a branch and in its rows from `top` on is in the box of a rail, or
just above a rail that is not the uppermost one. -/
theorem exists_contains_or_strip (left_le : branch.startX ≤ x) (le_right : x ≤ branch.endX)
    (top_le : top ≤ y) (le_bottom : y ≤ branch.endY) :
    (∃ rail ∈ rails, rail.contains x y = true) ∨
      ∃ place lower, rails[place + 1]? = some lower ∧
        lower.branchY - 1 < y ∧ y < lower.branchY := by
  induction stacked with
  | nil bottom => linarith
  | @cons top next rail rest startX_eq endX_eq _ startY_eq endY_eq _ others ih =>
      -- In the box of this rail, in the strip below it, or among the rails further down.
      by_cases inBox : y ≤ next - 1
      · refine Or.inl ⟨rail, List.mem_cons_self, contains_iff.mpr ?_⟩
        rw [startX_eq, endX_eq, startY_eq, endY_eq]
        exact ⟨⟨left_le, le_right⟩, top_le, inBox⟩
      · rw [not_le] at inBox
        by_cases inStrip : y < next
        · cases others with
          | nil bottom => linarith
          | cons _ _ branchY_eq _ _ _ _ =>
              refine Or.inr ⟨0, _, rfl, ?_⟩
              rw [branchY_eq]
              exact ⟨inBox, inStrip⟩
        · rcases ih (not_lt.mp inStrip) with
            ⟨found, member, contains⟩ | ⟨place, lower, isLower, strip⟩
          · exact Or.inl ⟨found, List.mem_cons_of_mem _ member, contains⟩
          · exact Or.inr ⟨place + 1, lower, isLower, strip⟩

/-- A point just above a rail that is not the uppermost one is in none of the boxes. -/
theorem not_contains_of_strip {place : Nat} {lower : Branch Rat}
    (isLower : rails[place + 1]? = some lower) (above : lower.branchY - 1 < y)
    (below : y < lower.branchY) : ∀ rail ∈ rails, ¬ rail.contains x y = true := by
  induction stacked generalizing place with
  | nil _ => exact fun rail member => absurd member List.not_mem_nil
  | @cons top next rail rest _ _ _ _ endY_eq _ others ih =>
      have isBelow : lower ∈ rest := List.mem_of_getElem? isLower
      have next_le := others.le_startY isBelow
      have begins := others.branchY_eq_startY isBelow
      intro own member contains
      obtain ⟨_, startY_le, le_endY⟩ := contains_iff.mp contains
      rcases List.mem_cons.mp member with rfl | member
      · linarith
      · have next_le_own := others.le_startY member
        cases place with
        | succ before => exact ih isLower own member contains
        | zero =>
            cases others with
            | nil _ => cases isLower
            | cons _ _ branchY_eq _ _ _ _ =>
                cases isLower
                linarith

end Stacks

/-- The further rails of a branch among some records, and the row at which they begin. -/
structure HasRails (branch : Branch Rat) (records rails : List (Branch Rat)) (top : Rat) :
    Prop where
  ids_eq : branch.childIds = rails.map (·.id)
  members : ∀ rail ∈ rails, rail ∈ records
  branchY_eq : branch.branchY = branch.startY
  above : branch.startY < top
  stacked : branch.Stacks top rails

theorem HasRails.mono {records more : List (Branch Rat)} (has : branch.HasRails records rails top)
    (part : ∀ record ∈ records, record ∈ more) : branch.HasRails more rails top :=
  { has with members := fun rail member => part rail (has.members rail member) }

end Branch

/-- The records of further rails, without those of the branches on them. -/
def FurtherRails.railRecords (config : LayoutConfig Rat) (input : RungInput Rat)
    (site : RailSite) (branch : Branch Rat) (position : Nat) : FurtherRails → List (Branch Rat)
  | .nil => []
  | .rail id own others =>
      branch.railRecord config input position id site.row own ::
        others.railRecords config input (site.lowered own.rows) branch
          (position + 1 + own.drafts.length)

namespace FurtherRails

theorem ids_eq_map_railRecords (site : RailSite) (branch : Branch Rat) (position : Nat)
    (rails : FurtherRails) :
    rails.ids = (rails.railRecords config input site branch position).map (·.id) := by
  cases rails with
  | nil => rfl
  | rail id own others =>
      exact congrArg (List.cons id)
        (others.ids_eq_map_railRecords (site.lowered own.rows) branch _)

theorem mem_records_of_mem_railRecords {site : RailSite} {branch rail : Branch Rat}
    {position : Nat} :
    ∀ {rails : FurtherRails}, rail ∈ rails.railRecords config input site branch position →
      rail ∈ rails.records config input site branch position
  | .nil, member => member
  | .rail _ _ _, member => by
      rcases List.mem_cons.mp member with rfl | member
      · exact mem_records_rail.mpr (Or.inl rfl)
      · exact mem_records_rail.mpr (Or.inr (Or.inr (mem_records_of_mem_railRecords member)))

theorem stacks_railRecords (rules : config.KeepsRules) (site : RailSite) {branch : Branch Rat}
    (position : Nat) :
    ∀ rails : FurtherRails,
      branch.endY = input.rowY config ((site.row + rails.rows : Nat) : Rat) - 1 →
      branch.Stacks (input.rowY config (site.row : Rat))
        (rails.railRecords config input site branch position)
  | .nil, bottom => .nil (by rw [bottom, sub_add_cancel]; rfl)
  | .rail id own others, bottom => by
      have rows : site.row + (FurtherRails.rail id own others).rows =
          site.row + own.rows + others.rows := (Nat.add_assoc _ _ _).symm
      rw [rows] at bottom
      have lower : input.rowY config (site.row : Rat) <
          input.rowY config ((site.row + own.rows : Nat) : Rat) :=
        input.rowY_strictMono rules (Nat.lt_add_of_pos_right own.one_le_rows)
      have below := others.stacks_railRecords rules (site.lowered own.rows)
        (position + 1 + own.drafts.length) bottom
      exact .cons rfl rfl rfl rfl rfl lower below

end FurtherRails

variable (rules : config.KeepsRules)

include rules

/-- A further rail has no further rails of its own. -/
theorem railRecord_hasRails {branch : Branch Rat} {position row : Nat} {id : BranchId}
    {own : RailTree} (records : List (Branch Rat)) :
    (branch.railRecord config input position id row own).HasRails records []
      ((branch.railRecord config input position id row own).endY + 1) := by
  refine ⟨rfl, fun _ member => absurd member List.not_mem_nil, rfl, ?_, .nil rfl⟩
  change input.rowY config (row : Rat) < input.rowY config ((row + own.rows : Nat) : Rat) - 1 + 1
  rw [sub_add_cancel]
  exact input.rowY_strictMono rules (Nat.lt_add_of_pos_right own.one_le_rows)

mutual

/-- The further rails of every branch on a rail stand one below the other. -/
theorem RailTree.exists_hasRails (site : RailSite) (position : Nat) (last : Option Rat)
    {branch : Branch Rat} :
    ∀ tree : RailTree, branch ∈ tree.records config input site position last →
      ∃ rails top, branch.HasRails (tree.records config input site position last) rails top
  | .nil, member => absurd member List.not_mem_nil
  | .instruction _ rest, member => rest.exists_hasRails site _ _ member
  | .branch id first further rest, member => by
      let startX := config.itemX site.originX last
      rcases mem_records_branch.mp member with rfl | inFirst | inFurther | inRest
      · refine ⟨_, _, further.ids_eq_map_railRecords
          ((site.inside id startX).lowered first.rows) _ _, fun rail isRail => ?_, rfl, ?_,
          further.stacks_railRecords rules ((site.inside id startX).lowered first.rows)
            (position + 1 + first.drafts.length) rfl⟩
        · exact mem_records_branch.mpr (Or.inr (Or.inr (Or.inl
            (FurtherRails.mem_records_of_mem_railRecords isRail))))
        · exact input.rowY_strictMono rules (Nat.lt_add_of_pos_right first.one_le_rows)
      · obtain ⟨rails, top, has⟩ := first.exists_hasRails _ _ _ inFirst
        exact ⟨rails, top, has.mono fun record isRecord =>
          mem_records_branch.mpr (Or.inr (Or.inl isRecord))⟩
      · obtain ⟨rails, top, has⟩ := further.exists_hasRails _ _ inFurther
        exact ⟨rails, top, has.mono fun record isRecord =>
          mem_records_branch.mpr (Or.inr (Or.inr (Or.inl isRecord)))⟩
      · obtain ⟨rails, top, has⟩ := rest.exists_hasRails site _ _ inRest
        exact ⟨rails, top, has.mono fun record isRecord =>
          mem_records_branch.mpr (Or.inr (Or.inr (Or.inr isRecord)))⟩

theorem FurtherRails.exists_hasRails (site : RailSite) {parent branch : Branch Rat}
    (position : Nat) :
    ∀ further : FurtherRails, branch ∈ further.records config input site parent position →
      ∃ rails top, branch.HasRails (further.records config input site parent position) rails top
  | .nil, member => absurd member List.not_mem_nil
  | .rail id own others, member => by
      rcases mem_records_rail.mp member with rfl | inOwn | inOthers
      · exact ⟨_, _, railRecord_hasRails rules _⟩
      · obtain ⟨rails, top, has⟩ := own.exists_hasRails _ _ _ inOwn
        exact ⟨rails, top, has.mono fun record isRecord =>
          mem_records_rail.mpr (Or.inr (Or.inl isRecord))⟩
      · obtain ⟨rails, top, has⟩ := others.exists_hasRails _ _ inOthers
        exact ⟨rails, top, has.mono fun record isRecord =>
          mem_records_rail.mpr (Or.inr (Or.inr isRecord))⟩

end

end LadderDiagram
