import LadderDiagram.Proofs.Layout.Boxes

/-!
# Points of elements

An element that is no next marker stands on a rail, and the smallest box around any of its
points is that of its rail; on the main rail there is no box around it at all.  The proof
goes by induction on the tree: an element on the rail itself is above the boxes of the
branches on it, and an element inside a branch is in the box of the branch, and in no box
of what is beside it.
-/

namespace LadderDiagram

variable {config : LayoutConfig Rat} {input : RungInput Rat}

namespace LayoutElement

/-- An element is on a rail, and a point of it is not below the row of this rail. -/
structure IsOn (placed : LayoutElement Rat) (config : LayoutConfig Rat) (input : RungInput Rat)
    (site : RailSite) (y : Rat) : Prop where
  railId : placed.railId = site.railId
  level : placed.element.branchLevel = .ofNat site.level
  above : y < input.rowY config ((site.row + 1 : Nat) : Rat)

/-- The smallest box around a point is that of the rail on which an element is. -/
structure IsBoxedBy (placed : LayoutElement Rat) (records : List (Branch Rat)) (x y : Rat)
    (record : Branch Rat) : Prop extends Branch.IsSmallest records x y record where
  railId : placed.railId = some record.id
  level : placed.element.branchLevel = record.branchLevel.next

namespace IsBoxedBy

variable {placed : LayoutElement Rat} {records others : List (Branch Rat)} {x y : Rat}
  {record outer : Branch Rat} (boxed : placed.IsBoxedBy records x y record)

include boxed

theorem cons (greater : outer.contains x y = true → record.area < outer.area) :
    placed.IsBoxedBy (outer :: records) x y record :=
  ⟨boxed.toIsSmallest.cons greater, boxed.railId, boxed.level⟩

theorem append_left (none : ∀ other ∈ others, ¬ other.contains x y = true) :
    placed.IsBoxedBy (records ++ others) x y record :=
  ⟨boxed.toIsSmallest.append_left none, boxed.railId, boxed.level⟩

theorem append_right (none : ∀ other ∈ others, ¬ other.contains x y = true) :
    placed.IsBoxedBy (others ++ records) x y record :=
  ⟨boxed.toIsSmallest.append_right none, boxed.railId, boxed.level⟩

end IsBoxedBy
end LayoutElement

variable (rules : config.KeepsRules)

include rules

theorem RailSite.put_isOn {site : RailSite} {position : Nat} {draft : Draft} {x px py : Rat}
    (inside : (site.put config input position draft x).contains px py = true) :
    (site.put config input position draft x).IsOn config input site py := by
  refine ⟨rfl, rfl, ?_⟩
  exact (LayoutElement.contains_iff.mp inside).2.2.trans_le
    (site.put_liesIn rules input position draft x).bottom_le

/-- No box of a branch on a rail contains a point above the row below this rail. -/
theorem RailTree.not_contains_of_above (tree : RailTree) {site : RailSite} {position : Nat}
    {last : Option Rat} {x y : Rat}
    (above : y < input.rowY config ((site.row + 1 : Nat) : Rat)) :
    ∀ record ∈ tree.records config input site position last, ¬ record.contains x y = true := by
  intro record member
  obtain ⟨edge, ends⟩ := tree.exists_endsBy config site.originX last
  exact (tree.records_liesIn rules site position ends member).not_contains_of_above above

section Branch

variable {site : RailSite} {position behind close : Nat} {id : BranchId} {startX : Rat}
  {first : RailTree} {further : FurtherRails} {record : Branch Rat}

theorem firstRecord_liesIn (further : FurtherRails)
    (member : record ∈ first.records config input (site.inside id startX) position none) :
    record.LiesIn config input
      ⟨startX + config.railOffset, branchReach config startX first further, site.row + 1 + 1,
        site.row + 1 + first.rows⟩ :=
  first.records_liesIn rules (site.inside id startX) position
    (endsBy_branchReach config startX first further) member

theorem furtherRecord_liesIn
    (member : record ∈ further.records config input
      ((site.inside id startX).lowered first.rows)
      (site.branchRecord config input position id startX first further) behind) :
    record.LiesIn config input
      ⟨startX, branchRight config startX first further, site.row + 1 + first.rows,
        site.row + 1 + first.rows + further.rows⟩ := by
  have origin : (site.branchRecord config input position id startX first further).startX =
      startX := rfl
  exact further.records_liesIn rules ((site.inside id startX).lowered first.rows) behind origin
    ((le_max_right _ _).trans (rules.branchReach_le_branchRight startX first further)) member

end Branch

/-- What is on a rail, or inside a branch on it, is in the box of the rail, or in a smaller one. -/
theorem RailTree.exists_isBoxedBy {site : RailSite} {position : Nat} {tree : RailTree}
    {rail : Branch Rat} {placed : LayoutElement Rat} {later : List (Branch Rat)} {x y : Rat}
    (contains : rail.contains x y = true) (isRail : site.railId = some rail.id)
    (level : rail.branchLevel.next = .ofNat site.level)
    (smaller : ∀ record ∈ tree.records config input site position none,
      record.contains x y = true → record.area < rail.area)
    (noLater : ∀ other ∈ later, ¬ other.contains x y = true)
    (boxed : placed.IsOn config input site y ∨ ∃ record,
      placed.IsBoxedBy (tree.records config input site position none) x y record) :
    ∃ record, placed.IsBoxedBy
      (rail :: (tree.records config input site position none ++ later)) x y record := by
  rcases boxed with ⟨railId, ownLevel, above⟩ | ⟨record, boxed⟩
  · refine ⟨rail, Branch.IsSmallest.head contains fun other member => ?_,
      railId.trans isRail, ownLevel.trans level.symm⟩
    rcases List.mem_append.mp member with inTree | isLater
    · exact tree.not_contains_of_above rules above other inTree
    · exact noLater other isLater
  · exact ⟨record, (boxed.append_left noLater).cons fun _ =>
      smaller record boxed.member boxed.contains⟩

mutual

/--
A point of an element on a rail, or inside a branch on it.  In a branch it is behind where
the items in question begin, so that no box before them contains it.
-/
theorem RailTree.isOn_or_isBoxedBy {x y : Rat}
    (snaps : ∀ row : Nat, y < input.rowY config (row : Rat) →
      y ≤ input.rowY config (row : Rat) - 1)
    (site : RailSite) (position : Nat) (last : Option Rat) {placed : LayoutElement Rat}
    (stays : placed.kind ≠ .branchNext) (inside : placed.contains x y = true) :
    ∀ tree : RailTree, placed ∈ tree.placed config input site position last →
      placed.IsOn config input site y ∨
        config.itemX site.originX last < x ∧
          ∃ record, placed.IsBoxedBy (tree.records config input site position last) x y record
  | .nil, member => absurd member List.not_mem_nil
  | .instruction content rest, member => by
      rcases List.mem_cons.mp member with rfl | member
      · exact Or.inl (RailSite.put_isOn rules inside)
      · refine (rest.isOn_or_isBoxedBy snaps site _ _ stays inside member).imp_right
          fun ⟨behind, boxed⟩ => ⟨?_, boxed⟩
        exact (rules.le_behind_add _ (rules.element content.category).width).trans_lt behind
  | .branch id first further rest, member => by
      let startX := config.itemX site.originX last
      let right := branchRight config startX first further
      have reach := rules.branchReach_le_branchRight startX first further
      have toRest := rules.le_behind right
      have fills : (site.branchRecord config input position id startX first further).Fills config
          input _ := branchRecord_fills startX
      have offset_le : startX ≤ startX + config.railOffset :=
        le_add_of_nonneg_right rules.railOffset.le
      obtain ⟨⟨left, within⟩, top, bottom⟩ := LayoutElement.contains_iff.mp inside
      obtain ⟨edge, ends⟩ := rest.exists_endsBy config site.originX (some right)
      have notRest (before : x < right) : ∀ other ∈ rest.records config input site _ (some right),
          ¬ other.contains x y = true := fun other member =>
        (rest.records_liesIn rules site
          (position + 1 + first.drafts.length + further.drafts.length + 1) ends
          member).not_contains_of_before (before.trans_le toRest)
      -- The box around an element of one part is the smallest one as no box of a part beside it
      -- contains the point: those are above it, below it, before it or behind it.
      rcases mem_placed_branch.mp member with rfl | inFirst | inFurther | rfl | inRest
      · exact Or.inl (RailSite.put_isOn rules inside)
      · have liesIn := first_liesIn rules further inFirst
        have behind : startX < x :=
          (lt_add_of_pos_right _ rules.railOffset).trans_le (liesIn.left_le.trans left)
        have placedIn := liesIn.mono rules offset_le reach (le_refl _)
          (Nat.le_add_right _ further.rows)
        refine Or.inr ⟨behind, first.exists_isBoxedBy rules (fills.contains placedIn inside snaps)
          rfl (Address.next_ofNat site.level) (fun record isRecord recordContains => ?_)
          (fun other member => ?_)
          ((first.isOn_or_isBoxedBy snaps _ _ _ stays inside inFirst).imp_right And.right)⟩
        · exact (firstRecord_liesIn rules further isRecord).area_lt rules fills offset_le reach
            (Nat.lt_succ_self _) (Nat.le_add_right _ _) recordContains
        · rcases List.mem_append.mp member with inFurther | inRest
          · exact (furtherRecord_liesIn rules inFurther).not_contains_of_above
              (bottom.trans_le liesIn.bottom_le)
          · exact notRest ((within.trans_le liesIn.right_le).trans_le reach) other inRest
      · have liesIn := further_liesIn rules further inFurther
        have origin : (site.branchRecord config input position id startX first further).startX =
            ((site.inside id startX).lowered first.rows).originX := rfl
        obtain ⟨behind, record, boxed⟩ := further.isBoxedBy_of_contains snaps _ _ origin
          (Address.next_ofNat site.level) stays inside ((le_max_right _ _).trans reach) inFurther
        refine Or.inr ⟨behind, record, ((boxed.append_left ?_).append_right ?_).cons fun _ => ?_⟩
        · exact notRest ((within.trans_le liesIn.right_le).trans_le reach)
        · exact fun other inFirst =>
            (firstRecord_liesIn rules further inFirst).not_contains_of_below
              (liesIn.top_le.trans top)
        · exact (furtherRecord_liesIn rules boxed.member).area_lt rules fills (le_refl _)
            (le_refl _) (Nat.lt_add_of_pos_right first.one_le_rows) (le_refl _) boxed.contains
      · exact Or.inl (RailSite.put_isOn rules inside)
      · refine (rest.isOn_or_isBoxedBy snaps site _ _ stays inside inRest).imp_right ?_
        rintro ⟨behind, record, boxed⟩
        have beyond : right < x := toRest.trans_lt behind
        refine ⟨(rules.startX_le_branchRight startX first further).trans_lt beyond, record,
          ((boxed.append_right ?_).append_right ?_).cons fun contains => ?_⟩
        · exact fun other inFurther =>
            (furtherRecord_liesIn rules inFurther).not_contains_of_behind beyond
        · exact fun other inFirst =>
            (firstRecord_liesIn rules further inFirst).not_contains_of_behind
              (reach.trans_lt beyond)
        · exact absurd contains (fills.liesIn.not_contains_of_behind beyond)

/-- A point of an element on a further rail of a branch, or inside a branch on one. -/
theorem FurtherRails.isBoxedBy_of_contains {x y : Rat}
    (snaps : ∀ row : Nat, y < input.rowY config (row : Rat) →
      y ≤ input.rowY config (row : Rat) - 1)
    (site : RailSite) (position : Nat) {branch : Branch Rat}
    (origin : branch.startX = site.originX) (level : branch.branchLevel.next = .ofNat site.level)
    {placed : LayoutElement Rat}
    (stays : placed.kind ≠ .branchNext) (inside : placed.contains x y = true) :
    ∀ rails : FurtherRails, rails.reach config site.originX ≤ branch.endX →
      placed ∈ rails.placed config input site position →
      site.originX < x ∧
        ∃ record, placed.IsBoxedBy (rails.records config input site branch position) x y record
  | .nil, _, member => absurd member List.not_mem_nil
  | .rail id own others, ends, member => by
      obtain ⟨⟨left, _⟩, top, bottom⟩ := LayoutElement.contains_iff.mp inside
      have ownEnds := FurtherRails.endsBy_reach config site.originX id own others
      have othersEnd : others.reach config site.originX ≤ branch.endX :=
        (le_max_right _ _).trans ends
      have fills : (branch.railRecord config input position id site.row own).Fills config input
          _ := railRecord_fills site.row
      have offset_le : site.originX ≤ site.originX + config.railOffset :=
        le_add_of_nonneg_right rules.railOffset.le
      rcases mem_placed_rail.mp member with rfl | inOwn | inOthers
      · exact absurd rfl stays
      · have ownIn : placed.LiesIn config input ⟨site.originX + config.railOffset, _, site.row,
            site.row + own.rows⟩ :=
          own.placed_liesIn rules (site.beside id) _ ownEnds inOwn
        have behind : site.originX < x :=
          (lt_add_of_pos_right _ rules.railOffset).trans_le (ownIn.left_le.trans left)
        have placedIn := ownIn.mono rules (origin.trans_le offset_le) ends (le_refl _) (le_refl _)
        refine ⟨behind, own.exists_isBoxedBy rules (fills.contains placedIn inside snaps) rfl level
          (fun record isRecord recordContains => ?_) (fun other inOthers => ?_)
          ((own.isOn_or_isBoxedBy snaps _ _ _ stays inside inOwn).imp_right And.right)⟩
        · exact (own.records_liesIn rules (site.beside id) (position + 1) ownEnds
            isRecord).area_lt rules fills (origin.trans_le offset_le) ends (Nat.lt_succ_self _)
            (le_refl _) recordContains
        · exact (others.records_liesIn rules (site.lowered own.rows) _ origin othersEnd
            inOthers).not_contains_of_above (bottom.trans_le ownIn.bottom_le)
      · have othersIn : placed.LiesIn config input
            ⟨site.originX, _, site.row + own.rows, _⟩ :=
          others.placed_liesIn rules (site.lowered own.rows) _ (le_refl _) inOthers
        obtain ⟨behind, record, boxed⟩ := others.isBoxedBy_of_contains snaps
          (site.lowered own.rows) _ origin level stays inside othersEnd inOthers
        have below := othersIn.top_le.trans top
        refine ⟨behind, record,
          (boxed.append_right fun other inOwn => ?_).cons fun contains => ?_⟩
        · exact (own.records_liesIn rules (site.beside id) (position + 1) ownEnds
            inOwn).not_contains_of_below below
        · exact absurd contains (fills.liesIn.not_contains_of_below below)

end

end LadderDiagram
