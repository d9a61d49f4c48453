import LadderDiagram.Proofs.Layout.Boxes
import LadderDiagram.Proofs.Sequence.Rail

/-!
# The elements of one rail

A rung is drawn from left to right with the branches of a rail inside of it.  Those of its
elements that stand on one rail are the items of this rail, in the same order, and if the
rail is one of a branch, the marker that opens it stands before them.  No handle is opened
twice, so no other part of the rung adds to them.
-/

namespace LadderDiagram

/-- Whether the gap before or behind an element is on a rail. -/
def LayoutElement.touches {α : Type} (rail : Option BranchId) (placed : LayoutElement α) : Bool :=
  placed.element.railId == rail || placed.element.railBehind == rail

/-- The elements of a rail itself, without what is inside of its branches. -/
def RailTree.items (config : LayoutConfig Rat) (input : RungInput Rat) (site : RailSite)
    (position : Nat) (last : Option Rat) : RailTree → List (LayoutElement Rat)
  | .nil => []
  | .instruction content rest =>
      let x := config.itemX site.originX last
      site.put config input position (.instruction content) x ::
        rest.items config input site (position + 1)
          (some (x + (config.sizeOf content.category).width))
  | .branch id first further rest =>
      let startX := config.itemX site.originX last
      let close := position + 1 + first.drafts.length + further.drafts.length
      site.put config input position (.branchStart id) startX ::
        site.put config input close (.branchEnd id)
          (config.behind (branchReach config startX first further)) ::
        rest.items config input site (close + 1) (some (branchRight config startX first further))

variable {config : LayoutConfig Rat} {input : RungInput Rat} {site : RailSite} {position : Nat}
  {x : Rat} {id : BranchId} {rail : Option BranchId}

@[simp] theorem touches_put_instruction (content : Instruction) :
    (site.put config input position (.instruction content) x).touches rail = true ↔
      site.railId = rail := by
  rw [LayoutElement.touches, Bool.or_eq_true, beq_iff_eq, beq_iff_eq]
  exact or_self_iff

@[simp] theorem touches_put_branchStart :
    (site.put config input position (.branchStart id) x).touches rail = true ↔
      site.railId = rail ∨ some id = rail := by
  rw [LayoutElement.touches, Bool.or_eq_true, beq_iff_eq, beq_iff_eq]
  rfl

@[simp] theorem touches_put_branchNext :
    ((site.beside id).put config input position (.branchNext id) x).touches rail = true ↔
      some id = rail := by
  rw [LayoutElement.touches, Bool.or_eq_true, beq_iff_eq, beq_iff_eq]
  exact or_self_iff

@[simp] theorem touches_put_branchEnd :
    (site.put config input position (.branchEnd id) x).touches rail = true ↔
      site.railId = rail := by
  rw [LayoutElement.touches, Bool.or_eq_true, beq_iff_eq, beq_iff_eq]
  exact or_self_iff

/-! ### Other rails -/

section Parts

variable {last : Option Rat} {first own : RailTree} {further others : FurtherRails}
  {rest : RailTree} {opened : BranchId}

theorem openedIds_branch :
    openedIds (RailTree.branch id first further rest).drafts =
      id :: (openedIds first.drafts ++ (openedIds further.drafts ++ openedIds rest.drafts)) := by
  rw [RailTree.drafts, openedIds_branchStart, openedIds_append, openedIds_append,
    openedIds_branchEnd]

theorem openedIds_rail :
    openedIds (FurtherRails.rail id own others).drafts =
      id :: (openedIds own.drafts ++ openedIds others.drafts) := by
  rw [FurtherRails.drafts, openedIds_branchNext, openedIds_append]

theorem not_opens_branch_iff :
    ¬ Opens (RailTree.branch id first further rest).drafts rail ↔
      some id ≠ rail ∧ ¬ Opens first.drafts rail ∧ ¬ Opens further.drafts rail ∧
        ¬ Opens rest.drafts rail := by
  simp only [Opens, openedIds_branch, List.exists_mem_cons_iff, List.mem_append, or_and_right,
    exists_or, not_or]

theorem not_opens_rail_iff :
    ¬ Opens (FurtherRails.rail id own others).drafts rail ↔
      some id ≠ rail ∧ ¬ Opens own.drafts rail ∧ ¬ Opens others.drafts rail := by
  simp only [Opens, openedIds_rail, List.exists_mem_cons_iff, List.mem_append, or_and_right,
    exists_or, not_or]

/-- On another rail than its own and its first one, a branch has the elements of its parts. -/
theorem filter_placed_branch (apart : site.railId ≠ rail) (other : some id ≠ rail) :
    ((RailTree.branch id first further rest).placed config input site position last).filter
        (·.touches rail) =
      (first.placed config input (site.inside id (config.itemX site.originX last))
        (position + 1) none).filter (·.touches rail) ++
      ((further.placed config input
        ((site.inside id (config.itemX site.originX last)).lowered first.rows)
        (position + 1 + first.drafts.length)).filter (·.touches rail) ++
      (rest.placed config input site
        (position + 1 + first.drafts.length + further.drafts.length + 1)
        (some (branchRight config (config.itemX site.originX last) first further))).filter
          (·.touches rail)) := by
  rw [RailTree.placed, List.filter_cons_of_neg (by simpa using ⟨apart, other⟩),
    List.filter_append, List.filter_append, List.filter_cons_of_neg (by simpa using apart)]

theorem filter_placed_rail (other : some id ≠ rail) :
    ((FurtherRails.rail id own others).placed config input site position).filter
        (·.touches rail) =
      (own.placed config input (site.beside id) (position + 1) none).filter (·.touches rail) ++
      (others.placed config input (site.lowered own.rows)
        (position + 1 + own.drafts.length)).filter (·.touches rail) := by
  rw [FurtherRails.placed, List.filter_cons_of_neg (by simpa using other), List.filter_append]

end Parts

mutual

/-- A rail that is not opened within another one has no elements there. -/
theorem RailTree.filter_placed_eq_nil (site : RailSite) (position : Nat) (last : Option Rat) :
    ∀ tree : RailTree, site.railId ≠ rail → ¬ Opens tree.drafts rail →
      (tree.placed config input site position last).filter (·.touches rail) = []
  | .nil, _, _ => rfl
  | .instruction content rest, apart, unopened => by
      rw [RailTree.placed, List.filter_cons_of_neg (by simpa using apart)]
      exact rest.filter_placed_eq_nil site _ _ apart unopened
  | .branch id first further rest, apart, unopened => by
      obtain ⟨other, notFirst, notFurther, notRest⟩ := not_opens_branch_iff.mp unopened
      rw [filter_placed_branch apart other, first.filter_placed_eq_nil _ _ _ other notFirst,
        further.filter_placed_eq_nil _ _ notFurther,
        rest.filter_placed_eq_nil site _ _ apart notRest]
      rfl

theorem FurtherRails.filter_placed_eq_nil (site : RailSite) (position : Nat) :
    ∀ rails : FurtherRails, ¬ Opens rails.drafts rail →
      (rails.placed config input site position).filter (·.touches rail) = []
  | .nil, _ => rfl
  | .rail id own others, unopened => by
      obtain ⟨other, notOwn, notOthers⟩ := not_opens_rail_iff.mp unopened
      rw [filter_placed_rail other, own.filter_placed_eq_nil _ _ _ other notOwn,
        others.filter_placed_eq_nil _ _ notOthers]
      rfl

end

/-- The elements that stand on a rail are its items. -/
theorem RailTree.filter_placed_eq_items (site : RailSite) (position : Nat) (last : Option Rat)
    (tree : RailTree) (unopened : ¬ Opens tree.drafts site.railId) :
    (tree.placed config input site position last).filter (·.touches site.railId) =
      tree.items config input site position last := by
  cases tree with
  | nil => rfl
  | instruction content rest =>
      rw [RailTree.placed, RailTree.items, List.filter_cons_of_pos (by simp)]
      exact congrArg _ (rest.filter_placed_eq_items site _ _ unopened)
  | branch id first further rest =>
      obtain ⟨other, notFirst, notFurther, notRest⟩ := not_opens_branch_iff.mp unopened
      rw [RailTree.placed, RailTree.items, List.filter_cons_of_pos (by simp),
        List.filter_append, List.filter_append, List.filter_cons_of_pos (by simp),
        first.filter_placed_eq_nil _ _ _ other notFirst,
        further.filter_placed_eq_nil _ _ notFurther,
        rest.filter_placed_eq_items site _ _ notRest]
      rfl

/-! ### Rails of branches -/

theorem LayoutConfig.behind_mono (config : LayoutConfig Rat) {right further : Rat}
    (le : right ≤ further) : config.behind right ≤ config.behind further := by
  unfold LayoutConfig.behind
  linarith

/-- The end marker of a branch stands at the end of its record. -/
theorem endX_branchRecord {startX : Rat} {first : RailTree} {further : FurtherRails} :
    (site.branchRecord config input position id startX first further).endX -
      config.sizes.branchMarker.width = config.behind (branchReach config startX first further) :=
  add_sub_cancel_right _ _

/--
A rail of a branch within a part of a rung: the marker that opens it stands before its
items, and its record is among those of the part.
-/
structure HoldsRail (config : LayoutConfig Rat) (input : RungInput Rat)
    (placed : List (LayoutElement Rat)) (records : List (Branch Rat)) (id : BranchId)
    (marker : LayoutElement Rat) (record : Branch Rat) (site : RailSite) (position : Nat)
    (own : RailTree) : Prop where
  railId : site.railId = some id
  elements : placed.filter (·.touches (some id)) =
    marker :: own.items config input site (position + 1) none
  opens : marker.element.openedRail? = some id
  /-- A start marker stands on the rail around its branch. -/
  marker_apart : marker.element.draft = .branchStart id → marker.railId ≠ some id
  marker_position : marker.position = .ofNat position
  marker_level : marker.element.levelBehind = .ofNat site.level
  member : record ∈ records
  record_id : record.id = id
  record_position : record.startPosition = .ofNat position
  record_level : record.branchLevel.next = .ofNat site.level
  record_start : record.startX = site.originX
  record_row : record.branchY = input.rowY config (site.row : Rat)
  /-- The end marker of the branch stands behind the rail. -/
  reaches : config.behind (config.railReach site.originX (own.lastRight config site.originX none)) ≤
    record.endX - config.sizes.branchMarker.width
  distinct : (openedIds own.drafts).Nodup
  unopened : ¬ Opens own.drafts site.railId
  records_subset : own.records config input site (position + 1) none ⊆ records

section HoldsRail

variable {placed : List (LayoutElement Rat)} {records : List (Branch Rat)}

/-- Some rail with a handle is held. -/
def HasRail (config : LayoutConfig Rat) (input : RungInput Rat)
    (placed : List (LayoutElement Rat)) (records : List (Branch Rat)) (id : BranchId) : Prop :=
  ∃ marker record site position own,
    HoldsRail config input placed records id marker record site position own

theorem HasRail.embed {more : List (LayoutElement Rat)} {moreRecords : List (Branch Rat)}
    (has : HasRail config input placed records id)
    (same : more.filter (·.touches (some id)) = placed.filter (·.touches (some id)))
    (subset : records ⊆ moreRecords) : HasRail config input more moreRecords id := by
  obtain ⟨marker, record, site, position, own, holds⟩ := has
  exact ⟨marker, record, site, position, own,
    { holds with
      elements := same.trans holds.elements
      member := subset holds.member
      records_subset := fun _ inner => subset (holds.records_subset inner) }⟩

end HoldsRail

mutual

/-- Every rail that is opened within another one is held by it. -/
theorem RailTree.hasRail (site : RailSite) (position : Nat) (last : Option Rat) :
    ∀ tree : RailTree, (openedIds tree.drafts).Nodup → ¬ Opens tree.drafts site.railId →
      id ∈ openedIds tree.drafts →
      HasRail config input (tree.placed config input site position last)
        (tree.records config input site position last) id
  | .nil, _, _, member => absurd member List.not_mem_nil
  | .instruction content rest, distinct, unopened, member => by
      have apart : site.railId ≠ some id := fun same =>
        unopened (same ▸ opens_some_iff.mpr member)
      refine (rest.hasRail site (position + 1) _ distinct unopened member).embed ?_ fun _ inner =>
        inner
      rw [RailTree.placed, List.filter_cons_of_neg (by simpa using apart)]
  | .branch opened first further rest, distinct, unopened, member => by
      have apart : site.railId ≠ some id := fun same =>
        unopened (same ▸ opens_some_iff.mpr member)
      have notRest := (not_opens_branch_iff.mp unopened).2.2.2
      rw [openedIds_branch] at distinct member
      simp only [List.nodup_cons, List.nodup_append, List.mem_append, not_or] at distinct
      obtain ⟨⟨outFirst, outFurther, outRest⟩, first_nodup, ⟨further_nodup, rest_nodup, later⟩,
        behind⟩ := distinct
      simp only [List.mem_cons, List.mem_append] at member
      let startX := config.itemX site.originX last
      let inside := site.inside opened startX
      rcases member with rfl | inFirst | inFurther | inRest
      · refine ⟨site.put config input position (.branchStart id) startX,
          site.branchRecord config input position id startX first further, inside, position, first,
          rfl, ?_, rfl, fun _ => apart, rfl, rfl, mem_records_branch.mpr (Or.inl rfl), rfl, rfl,
          rfl, rfl, rfl, ?_, first_nodup, opens_some_iff.not.mpr outFirst,
          fun _ inner => mem_records_branch.mpr (Or.inr (Or.inl inner))⟩
        swap
        · rw [endX_branchRecord]
          exact config.behind_mono (le_max_left _ _)
        rw [RailTree.placed, List.filter_cons_of_pos (by simp), List.filter_append,
          List.filter_append, List.filter_cons_of_neg (by simpa using apart),
          further.filter_placed_eq_nil _ _ (opens_some_iff.not.mpr outFurther),
          rest.filter_placed_eq_nil site _ _ apart (opens_some_iff.not.mpr outRest),
          List.append_nil, List.append_nil]
        exact congrArg _ (first.filter_placed_eq_items inside _ _ (opens_some_iff.not.mpr outFirst))
      · have other : some opened ≠ some id := fun same => outFirst (Option.some.inj same ▸ inFirst)
        refine (first.hasRail inside (position + 1) none first_nodup
          (opens_some_iff.not.mpr outFirst) inFirst).embed ?_ fun _ inner =>
            mem_records_branch.mpr (Or.inr (Or.inl inner))
        rw [filter_placed_branch apart other,
          further.filter_placed_eq_nil _ _ (opens_some_iff.not.mpr fun isOther =>
            behind id inFirst id (Or.inl isOther) rfl),
          rest.filter_placed_eq_nil site _ _ apart (opens_some_iff.not.mpr fun isOther =>
            behind id inFirst id (Or.inr isOther) rfl),
          List.append_nil, List.append_nil]
      · have other : some opened ≠ some id := fun same =>
          outFurther (Option.some.inj same ▸ inFurther)
        have level : (site.branchRecord config input position opened startX first
            further).branchLevel.next = .ofNat (inside.lowered first.rows).level := rfl
        have reaches : config.behind (further.reach config startX) ≤ (site.branchRecord config input
            position opened startX first further).endX - config.sizes.branchMarker.width := by
          rw [endX_branchRecord]
          exact config.behind_mono (le_max_right _ _)
        refine (further.hasRail (inside.lowered first.rows) _ level rfl reaches further_nodup
          inFurther).embed ?_ fun _ inner => mem_records_branch.mpr (Or.inr (Or.inr (Or.inl inner)))
        rw [filter_placed_branch apart other,
          first.filter_placed_eq_nil _ _ _ other (opens_some_iff.not.mpr fun isOther =>
            behind id isOther id (Or.inl inFurther) rfl),
          rest.filter_placed_eq_nil site _ _ apart (opens_some_iff.not.mpr fun isOther =>
            later id inFurther id isOther rfl),
          List.append_nil, List.nil_append]
      · have other : some opened ≠ some id := fun same => outRest (Option.some.inj same ▸ inRest)
        refine (rest.hasRail site _ _ rest_nodup notRest inRest).embed ?_ fun _ inner =>
          mem_records_branch.mpr (Or.inr (Or.inr (Or.inr inner)))
        rw [filter_placed_branch apart other,
          first.filter_placed_eq_nil _ _ _ other (opens_some_iff.not.mpr fun isOther =>
            behind id isOther id (Or.inr inRest) rfl),
          further.filter_placed_eq_nil _ _ (opens_some_iff.not.mpr fun isOther =>
            later id isOther id inRest rfl),
          List.nil_append, List.nil_append]

theorem FurtherRails.hasRail (site : RailSite) (position : Nat) {branch : Branch Rat}
    (level : branch.branchLevel.next = .ofNat site.level) (begins : branch.startX = site.originX) :
    ∀ rails : FurtherRails,
      config.behind (rails.reach config site.originX) ≤
        branch.endX - config.sizes.branchMarker.width →
      (openedIds rails.drafts).Nodup → id ∈ openedIds rails.drafts →
      HasRail config input (rails.placed config input site position)
        (rails.records config input site branch position) id
  | .nil, _, _, member => absurd member List.not_mem_nil
  | .rail opened own others, reaches, distinct, member => by
      have reachesOwn := (config.behind_mono (le_max_left _ _)).trans reaches
      have reachesOthers := (config.behind_mono (le_max_right _ _)).trans reaches
      rw [openedIds_rail] at distinct member
      simp only [List.nodup_cons, List.nodup_append, List.mem_append, not_or] at distinct
      obtain ⟨⟨outOwn, outOthers⟩, own_nodup, others_nodup, behind⟩ := distinct
      simp only [List.mem_cons, List.mem_append] at member
      rcases member with rfl | inOwn | inOthers
      · refine ⟨(site.beside id).put config input position (.branchNext id) site.originX,
          branch.railRecord config input position id site.row own, site.beside id, position, own,
          rfl, ?_, rfl, nofun, rfl, rfl, mem_records_rail.mpr (Or.inl rfl), rfl, rfl, level,
          begins, rfl, reachesOwn, own_nodup, opens_some_iff.not.mpr outOwn,
          fun _ inner => mem_records_rail.mpr (Or.inr (Or.inl inner))⟩
        rw [FurtherRails.placed, List.filter_cons_of_pos (by simp), List.filter_append,
          others.filter_placed_eq_nil _ _ (opens_some_iff.not.mpr outOthers), List.append_nil]
        exact congrArg _ (own.filter_placed_eq_items (site.beside id) _ _
          (opens_some_iff.not.mpr outOwn))
      · have other : some opened ≠ some id := fun same => outOwn (Option.some.inj same ▸ inOwn)
        refine (own.hasRail (site.beside opened) (position + 1) none own_nodup
          (opens_some_iff.not.mpr outOwn) inOwn).embed ?_ fun _ inner =>
            mem_records_rail.mpr (Or.inr (Or.inl inner))
        rw [filter_placed_rail other,
          others.filter_placed_eq_nil _ _ (opens_some_iff.not.mpr fun isOther =>
            behind id inOwn id isOther rfl), List.append_nil]
      · have other : some opened ≠ some id := fun same =>
          outOthers (Option.some.inj same ▸ inOthers)
        refine (others.hasRail (site.lowered own.rows) _ level begins reachesOthers others_nodup
          inOthers).embed ?_
          fun _ inner => mem_records_rail.mpr (Or.inr (Or.inr inner))
        rw [filter_placed_rail other,
          own.filter_placed_eq_nil _ _ _ other (opens_some_iff.not.mpr fun isOther =>
            behind id isOther id inOthers rfl), List.nil_append]

end

end LadderDiagram
