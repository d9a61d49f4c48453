import LadderDiagram.Proofs.Editor.Pointing
import LadderDiagram.Proofs.Layout.Stacks

/-!
# Points of a branch

A point in the box of a branch leads to a rail in whose rows it is, unless it is in a strip
between two further rails.  The box of a further rail ends one unit above the row of the
next one, so a height that is not whole can be below the one and above the other.  Only the
box of the whole branch is left there, and that is taken for its first rail.
-/

namespace LadderDiagram

/-- The rails of a branch from top to bottom; the first one has the handle of the branch. -/
def Branch.railIds {α : Type} (branch : Branch α) : List BranchId := branch.id :: branch.childIds

namespace Drawing

variable {drawing : Drawing Rat} {branch : Branch Rat} {x y : Rat}

/-- The height at which the row of a rail begins. -/
def rowTop? (drawing : Drawing Rat) (rail : BranchId) : Option Rat :=
  (drawing.arena.get? rail).map (·.branchY)

/--
If a point leads to a rail of a branch, it is not above the row of this rail, and above
that of the next one, if there is one.
-/
def LeadsToBand (drawing : Drawing Rat) (branch : Branch Rat) (x y : Rat) : Prop :=
  ∀ hit place rail, drawing.locate x y = some hit → branch.railIds[place]? = some rail →
    hit.branchId = some rail →
      ∃ top, drawing.rowTop? rail = some top ∧ top ≤ y ∧
        ∀ next ∈ branch.railIds[place + 1]?, ∃ below, drawing.rowTop? next = some below ∧ y < below

/-- A height is less than one unit above a further rail of a branch that is not the second one. -/
def IsBetweenRails (drawing : Drawing Rat) (branch : Branch Rat) (y : Rat) : Prop :=
  ∃ place lower top, branch.railIds[place + 2]? = some lower ∧
    drawing.rowTop? lower = some top ∧ top - 1 < y ∧ y < top

/-- The rail that is found has the smallest box of those of its rung that contain the point. -/
theorem exists_record_of_locate {hit : RailHit} {rail : BranchId}
    (locates : drawing.locate x y = some hit) (found : hit.branchId = some rail) :
    ∃ record ∈ drawing.arena.records, record.id = rail ∧ record.contains x y = true ∧
      ∀ other ∈ drawing.arena.records, other.rungNumber = record.rungNumber →
        other.contains x y = true → record.area ≤ other.area := by
  unfold locate at locates
  obtain ⟨layout, _, rfl⟩ := Option.map_eq_some_iff.mp locates
  rcases drawing.innermost_cases layout.rungNumber x y with
    ⟨chosen, _⟩ | ⟨record, member, chosen, contains, least⟩
  · rw [chosen] at found
    cases found
  · rw [chosen] at found
    obtain ⟨isRecord, number⟩ := List.mem_filter.mp member
    refine ⟨record, isRecord, Option.some.inj found, contains, fun other isOther sameRung => ?_⟩
    refine least other (List.mem_filter.mpr ⟨isOther, beq_iff_eq.mpr ?_⟩)
    exact sameRung.trans (beq_iff_eq.mp number)

section LaidOut

variable (laid : drawing.LaidOut) (rules : drawing.config.KeepsRules)

include laid

/-- The records of an arena are found by their handles. -/
theorem LaidOut.rowTop?_eq {record : Branch Rat} (member : record ∈ drawing.arena.records) :
    drawing.rowTop? record.id = some record.branchY := by
  unfold rowTop?
  rw [laid.sorted.get?_eq member]
  rfl

theorem LaidOut.eq_of_id_eq {record other : Branch Rat} (member : record ∈ drawing.arena.records)
    (isOther : other ∈ drawing.arena.records) (same : record.id = other.id) : record = other :=
  Option.some.inj ((laid.sorted.get?_eq member).symm.trans
    (same ▸ laid.sorted.get?_eq isOther))

include rules

/-- The further rails of every branch of a drawing, on its own rung. -/
theorem LaidOut.exists_hasRails (member : branch ∈ drawing.arena.records) :
    ∃ rails top, branch.HasRails drawing.arena.records rails top ∧
      ∀ rail ∈ rails, rail.rungNumber = branch.rungNumber := by
  obtain ⟨index, bounded, number⟩ := laid.numbered branch member
  obtain ⟨rung, layout, draws⟩ := laid.exists_draws bounded
  obtain ⟨tree, _, same⟩ := draws.exists_tree laid rules
  have inTree := (draws.branches branch).mpr ⟨member, number⟩
  rw [same] at inTree
  obtain ⟨rails, top, has⟩ := tree.exists_hasRails rules (.main drawing.config) 0 none inTree
  have inLayout : ∀ record ∈ tree.records drawing.config
      (rungInput index (drawing.bandStart index) rung) (.main drawing.config) 0 none,
      record ∈ layout.branches := by
    rw [same]
    exact fun record isRecord => isRecord
  refine ⟨rails, top, has.mono fun record isRecord =>
    ((draws.branches record).mp (inLayout record isRecord)).1, fun rail isRail => ?_⟩
  exact ((draws.branches rail).mp (inLayout rail (has.members rail isRail))).2.trans number.symm

end LaidOut

/-! ### The rails of one branch -/

section HasRails

variable {rails : List (Branch Rat)} {top : Rat}

theorem railIds_eq_map (has : branch.HasRails drawing.arena.records rails top) :
    branch.railIds = (branch :: rails).map (·.id) :=
  congrArg (List.cons branch.id) has.ids_eq

variable (laid : drawing.LaidOut) (has : branch.HasRails drawing.arena.records rails top)

include laid has

/-- A height just above a further rail but the uppermost one is between two of them. -/
theorem LaidOut.isBetweenRails_iff :
    drawing.IsBetweenRails branch y ↔
      ∃ place lower, rails[place + 1]? = some lower ∧
        lower.branchY - 1 < y ∧ y < lower.branchY := by
  unfold IsBetweenRails
  rw [railIds_eq_map has]
  constructor
  · rintro ⟨place, lower, below, isLower, row, strip⟩
    rw [List.getElem?_map] at isLower
    obtain ⟨record, stands, rfl⟩ := Option.map_eq_some_iff.mp isLower
    have isRecord := has.members record (List.mem_of_getElem? stands)
    obtain rfl := Option.some.inj ((laid.rowTop?_eq isRecord).symm.trans row)
    exact ⟨place, record, stands, strip⟩
  · rintro ⟨place, lower, stands, strip⟩
    refine ⟨place, lower.id, lower.branchY, ?_,
      laid.rowTop?_eq (has.members lower (List.mem_of_getElem? stands)), strip⟩
    rw [List.getElem?_map]
    exact congrArg (Option.map Branch.id) stands

variable (member : branch ∈ drawing.arena.records)

include member

/-- The rail of a branch that is found has a record among those of its rails. -/
theorem LaidOut.exists_rail_of_locate {hit : RailHit} {place : Nat} {rail : BranchId}
    (locates : drawing.locate x y = some hit) (isRail : branch.railIds[place]? = some rail)
    (found : hit.branchId = some rail) :
    ∃ record, (branch :: rails)[place]? = some record ∧ record.id = rail ∧
      record.contains x y = true ∧
      ∀ other ∈ drawing.arena.records, other.rungNumber = record.rungNumber →
        other.contains x y = true → record.area ≤ other.area := by
  rw [railIds_eq_map has, List.getElem?_map] at isRail
  obtain ⟨record, stands, sameId⟩ := Option.map_eq_some_iff.mp isRail
  have isRecord : record ∈ drawing.arena.records := by
    rcases List.mem_cons.mp (List.mem_of_getElem? stands) with rfl | isFurther
    · exact member
    · exact has.members record isFurther
  obtain ⟨own, isOwn, ownId, contains, least⟩ := exists_record_of_locate locates found
  obtain rfl := laid.eq_of_id_eq isOwn isRecord (ownId.trans sameId.symm)
  exact ⟨own, stands, sameId, contains, least⟩

/-- A point that is not between two further rails leads to the rail in whose rows it is. -/
theorem LaidOut.leadsToBand (sameRung : ∀ rail ∈ rails, rail.rungNumber = branch.rungNumber)
    (inside : branch.contains x y = true) (notBetween : ¬ drawing.IsBetweenRails branch y) :
    drawing.LeadsToBand branch x y := by
  intro hit place rail locates isRail found
  obtain ⟨record, stands, rfl, contains, least⟩ :=
    laid.exists_rail_of_locate has member locates isRail found
  obtain ⟨_, startY_le, le_endY⟩ := Branch.contains_iff.mp contains
  cases place with
  | zero =>
      -- The first rail is found only if no box of a further rail contains the point.
      obtain rfl : branch = record := Option.some.inj stands
      refine ⟨branch.branchY, laid.rowTop?_eq member, has.branchY_eq.trans_le startY_le, ?_⟩
      intro next isNext
      rw [railIds_eq_map has, List.getElem?_map] at isNext
      obtain ⟨below, isBelow, rfl⟩ := Option.map_eq_some_iff.mp isNext
      have isFurther : below ∈ rails := List.mem_of_getElem? isBelow
      refine ⟨below.branchY, laid.rowTop?_eq (has.members below isFurther), ?_⟩
      by_contra notAbove
      have top_le : top ≤ y := has.stacked.branchY_eq_of_head isBelow ▸ not_lt.mp notAbove
      obtain ⟨⟨left, right⟩, _, bottom⟩ := Branch.contains_iff.mp inside
      rcases has.stacked.exists_contains_or_strip left right top_le bottom with
        ⟨rail, isRail, railContains⟩ | between
      · exact absurd (least rail (has.members rail isRail) (sameRung rail isRail) railContains)
          (not_le.mpr (has.stacked.area_lt isRail has.above railContains))
      · exact notBetween ((laid.isBetweenRails_iff has).mpr between)
  | succ before =>
      have isFurther : record ∈ rails := List.mem_of_getElem? stands
      refine ⟨record.branchY, laid.rowTop?_eq (has.members record isFurther),
        (has.stacked.branchY_eq_startY isFurther).trans_le startY_le, ?_⟩
      intro next isNext
      rw [railIds_eq_map has, List.getElem?_map] at isNext
      obtain ⟨below, isBelow, rfl⟩ := Option.map_eq_some_iff.mp isNext
      refine ⟨below.branchY,
        laid.rowTop?_eq (has.members below (List.mem_of_getElem? isBelow)), ?_⟩
      have ends := has.stacked.endY_eq_of_next stands isBelow
      linarith

/-- A point between two further rails leads to neither of them, nor to another further rail. -/
theorem LaidOut.eq_first_of_between (between : drawing.IsBetweenRails branch y) (hit : RailHit)
    (rail : BranchId) (locates : drawing.locate x y = some hit) (isRail : rail ∈ branch.railIds)
    (found : hit.branchId = some rail) : rail = branch.id := by
  obtain ⟨place, stands⟩ := List.mem_iff_getElem?.mp isRail
  obtain ⟨record, isRecord, rfl, contains, _⟩ :=
    laid.exists_rail_of_locate has member locates stands found
  obtain ⟨_, lower, isLower, above, below⟩ := (laid.isBetweenRails_iff has).mp between
  rcases List.mem_cons.mp (List.mem_of_getElem? isRecord) with rfl | isFurther
  · rfl
  · exact absurd contains
      (has.stacked.not_contains_of_strip isLower above below record isFurther)

end HasRails

end Drawing

namespace Editor

variable {config : LayoutConfig Rat} {drawing : Drawing Rat}

/--
A point in the box of a branch that leads to a rail of this branch is in the rows of that
rail, unless it is between two further rails.  There it leads to none of the further rails,
so that if it leads to a rail of the branch this is the first one.
-/
theorem leadsToBand_or_between (valid : config.isValid = true)
    (reachable : Reachable config drawing) {branch : Branch Rat}
    (member : branch ∈ drawing.arena.records) (x y : Rat)
    (inside : branch.contains x y = true) :
    (¬ drawing.IsBetweenRails branch y → drawing.LeadsToBand branch x y) ∧
      (drawing.IsBetweenRails branch y → ∀ hit rail, drawing.locate x y = some hit →
        rail ∈ branch.railIds → hit.branchId = some rail → rail = branch.id) := by
  have laid := reachable.laidOut
  have rules : drawing.config.KeepsRules :=
    LayoutConfig.keepsRules_of_isValid (reachable.config_eq ▸ valid)
  obtain ⟨rails, top, has, sameRung⟩ := laid.exists_hasRails rules member
  exact ⟨laid.leadsToBand has member sameRung inside, laid.eq_first_of_between has member⟩

/-- An editor that has read a rung with one branch of three rails, on the heights 120 to 300. -/
def threeRails : Drawing Rat :=
  (Call.on (.blank .standard .empty)
    (.load ⟨none, [⟨some "[XIC(A),XIC(B),XIC(C)];", none⟩]⟩)).2

theorem exists_branch_of_threeRails :
    ∃ branch ∈ threeRails.arena.records,
      branch.railIds = [.ofNat 0, .ofNat 1, .ofNat 2] ∧
      branch.contains 100 200 = true ∧ branch.contains 100 (479 / 2) = true := by
  have values : (threeRails.arena.get? (.ofNat 0)).map (fun branch => (branch.railIds,
      branch.contains 100 200, branch.contains 100 (479 / 2))) =
        some ([.ofNat 0, .ofNat 1, .ofNat 2], true, true) := by
    decide +kernel
  obtain ⟨branch, isRecord, same⟩ := Option.map_eq_some_iff.mp values
  simp only [Prod.mk.injEq] at same
  exact ⟨branch, List.mem_of_find?_eq_some isRecord, same⟩

/-- On the second rail, well above the third one. -/
theorem leadsToBand_of_threeRails :
    ∃ branch ∈ threeRails.arena.records, branch.contains 100 200 = true ∧
      threeRails.LeadsToBand branch 100 200 := by
  obtain ⟨branch, member, railIds, inside, _⟩ := exists_branch_of_threeRails
  have row : threeRails.rowTop? (.ofNat 2) = some 240 := by decide +kernel
  refine ⟨branch, member, inside, (leadsToBand_or_between (by decide +kernel)
    (.called _ .new) member 100 200 inside).1 ?_⟩
  rintro ⟨place, lower, top, isLower, begins, above, _⟩
  rw [railIds] at isLower
  cases place with
  | zero =>
      obtain rfl : Address.ofNat 2 = lower := Option.some.inj isLower
      obtain rfl : 240 = top := Option.some.inj (row.symm.trans begins)
      exact absurd above (by norm_num)
  | succ before => cases isLower

/--
Half a unit above the third rail: the point is in the rows of the second rail, and it leads
to the first one.
-/
theorem not_leadsToBand_of_threeRails :
    Reachable .standard threeRails ∧ (.standard : LayoutConfig Rat).isValid = true ∧
      ∃ branch ∈ threeRails.arena.records, branch.contains 100 (479 / 2) = true ∧
        ¬ threeRails.LeadsToBand branch 100 (479 / 2) := by
  obtain ⟨branch, member, railIds, _, inside⟩ := exists_branch_of_threeRails
  refine ⟨.called _ .new, by decide +kernel, branch, member, inside, fun leads => ?_⟩
  have located : threeRails.locate 100 (479 / 2) =
      some ⟨.ofNat 0, .ofNat 1, some (.ofNat 0)⟩ := by
    decide +kernel
  have row : threeRails.rowTop? (.ofNat 1) = some 180 := by decide +kernel
  have first : branch.railIds[0]? = some (.ofNat 0) := by rw [railIds]; rfl
  have second : branch.railIds[0 + 1]? = some (.ofNat 1) := by rw [railIds]; rfl
  obtain ⟨_, _, _, next⟩ := leads _ 0 _ located first rfl
  obtain ⟨top, begins, below⟩ := next _ second
  obtain rfl : 180 = top := Option.some.inj (row.symm.trans begins)
  exact absurd below (by norm_num)

end Editor
end LadderDiagram
