import LadderDiagram.Proofs.Layout.Regions

/-!
# Where the parts of a rail stand

By induction on the tree of a rail: its elements are behind the item before it, above the
row below its rows and not beyond its last item.  The boxes of its branches begin one row
further down.  No two of its elements overlap, since the parts of a branch are above one
another, or one is before the other.
-/

namespace LadderDiagram

variable {config : LayoutConfig Rat} {input : RungInput Rat}

/-- No item of a rail, behind one with the right edge `last`, reaches beyond `right`. -/
def RailTree.EndsBy (config : LayoutConfig Rat) (originX : Rat) (last : Option Rat)
    (right : Rat) (tree : RailTree) : Prop :=
  ∀ edge ∈ tree.lastRight config originX last, edge ≤ right

theorem RailTree.EndsBy.le (rules : config.KeepsRules) {originX edge right : Rat}
    {tree : RailTree} (ends : tree.EndsBy config originX (some edge) right) : edge ≤ right := by
  obtain ⟨last, isLast, le⟩ := rules.reachesTo_lastRight originX (some edge) tree edge rfl
  exact le.trans (ends last isLast)

theorem RailTree.exists_endsBy (config : LayoutConfig Rat) (originX : Rat) (last : Option Rat)
    (tree : RailTree) : ∃ right, tree.EndsBy config originX last right := by
  refine ⟨(tree.lastRight config originX last).getD originX, fun edge isLast => ?_⟩
  rw [Option.mem_def.mp isLast]
  exact le_refl edge

/-- A rail of a branch ends where it reaches to. -/
theorem RailTree.endsBy_of_railReach_le {startX right : Rat} {tree : RailTree}
    (le : config.railReach startX (tree.lastRight config startX none) ≤ right) :
    tree.EndsBy config startX none right := by
  intro edge isLast
  rw [Option.mem_def.mp isLast] at le
  exact le

theorem endsBy_branchReach (config : LayoutConfig Rat) (startX : Rat) (first : RailTree)
    (further : FurtherRails) :
    first.EndsBy config startX none (branchReach config startX first further) :=
  RailTree.endsBy_of_railReach_le (le_max_left _ _)

theorem FurtherRails.endsBy_reach (config : LayoutConfig Rat) (startX : Rat) (id : BranchId)
    (own : RailTree) (others : FurtherRails) :
    own.EndsBy config startX none ((FurtherRails.rail id own others).reach config startX) :=
  RailTree.endsBy_of_railReach_le (le_max_left _ _)

theorem RailTree.one_le_rows (tree : RailTree) : 1 ≤ tree.rows := Nat.le_add_right 1 _

/-- The rows of a branch are some of the rows of its rail. -/
theorem RailTree.branch_rows_le (id : BranchId) (first : RailTree) (further : FurtherRails)
    (rest : RailTree) :
    1 + first.rows + further.rows ≤ (RailTree.branch id first further rest).rows := by
  simp only [RailTree.rows, RailTree.innerRows]
  omega

theorem RailTree.rest_rows_le (id : BranchId) (first : RailTree) (further : FurtherRails)
    (rest : RailTree) : rest.rows ≤ (RailTree.branch id first further rest).rows := by
  simp only [RailTree.rows, RailTree.innerRows]
  omega

/-- The rows of a rung end above the padding at its bottom. -/
theorem RungInput.rowY_le_bottom (rules : config.KeepsRules) (input : RungInput Rat)
    (tree : RailTree) {row : Nat} (within : row ≤ tree.rows) :
    input.rowY config (row : Rat) ≤ input.y + (tree.layout config input).height := by
  have padding : 0 ≤ config.rungPadding := rules.nonneg .rungPadding
  refine (input.rowY_mono rules within).trans ?_
  change input.y + config.rungPadding + input.commentLines * config.commentLineHeight +
    (tree.rows : Rat) * config.branchSpacing ≤ input.y + (2 * config.rungPadding +
      input.commentLines * config.commentLineHeight + (tree.rows : Rat) * config.branchSpacing)
  linarith

/-! ### Elements -/

section Parts

variable {site : RailSite} {position : Nat} {last : Option Rat} {id : BranchId}
  {first own : RailTree} {further others : FurtherRails} {rest : RailTree}

theorem mem_placed_branch {placed : LayoutElement Rat} :
    placed ∈ (RailTree.branch id first further rest).placed config input site position last ↔
      placed = site.put config input position (.branchStart id)
        (config.itemX site.originX last) ∨
      placed ∈ first.placed config input
        (site.inside id (config.itemX site.originX last)) (position + 1) none ∨
      placed ∈ further.placed config input
        ((site.inside id (config.itemX site.originX last)).lowered first.rows)
        (position + 1 + first.drafts.length) ∨
      placed = site.put config input
        (position + 1 + first.drafts.length + further.drafts.length) (.branchEnd id)
        (config.behind (branchReach config (config.itemX site.originX last) first further)) ∨
      placed ∈ rest.placed config input site
        (position + 1 + first.drafts.length + further.drafts.length + 1)
        (some (branchRight config (config.itemX site.originX last) first further)) := by
  rw [RailTree.placed]
  simp only [List.mem_cons, List.mem_append]

theorem mem_placed_rail {placed : LayoutElement Rat} :
    placed ∈ (FurtherRails.rail id own others).placed config input site position ↔
      placed = (site.beside id).put config input position (.branchNext id) site.originX ∨
      placed ∈ own.placed config input (site.beside id) (position + 1) none ∨
      placed ∈ others.placed config input (site.lowered own.rows)
        (position + 1 + own.drafts.length) := by
  rw [FurtherRails.placed]
  simp only [List.mem_cons, List.mem_append]

end Parts

variable (rules : config.KeepsRules)

include rules

mutual

/-- The elements of a rail stand in its rows, behind the item before them. -/
theorem RailTree.placed_liesIn (site : RailSite) (position : Nat) {last : Option Rat}
    {right : Rat} {placed : LayoutElement Rat} :
    ∀ tree : RailTree, tree.EndsBy config site.originX last right →
      placed ∈ tree.placed config input site position last →
      placed.LiesIn config input
        ⟨config.itemX site.originX last, right, site.row, site.row + tree.rows⟩
  | .nil, _, member => absurd member List.not_mem_nil
  | .instruction content rest, ends, member => by
      have restEnds : rest.EndsBy config site.originX
        (some (config.itemX site.originX last + (config.sizeOf content.category).width)) right :=
          ends
      rcases List.mem_cons.mp member with rfl | member
      · exact (site.put_liesIn rules input position (.instruction content) _).mono rules
          (le_refl _) (restEnds.le rules) (le_refl _)
          (Nat.add_le_add_left (RailTree.one_le_rows _) _)
      · exact (rest.placed_liesIn site _ restEnds member).mono rules
          (rules.le_behind_add _ (rules.element content.category).width) (le_refl _) (le_refl _)
          (le_refl _)
  | .branch id first further rest, ends, member => by
      let startX := config.itemX site.originX last
      have restEnds : rest.EndsBy config site.originX
        (some (branchRight config startX first further)) right := ends
      have marker := marker_le_branchReach config startX first further
      have reach := rules.branchReach_le_branchRight startX first further
      have right_le := restEnds.le rules
      have rows := RailTree.branch_rows_le id first further rest
      rcases mem_placed_branch.mp member with rfl | inFirst | inFurther | rfl | inRest
      · exact (site.put_liesIn rules input position (.branchStart id) _).mono rules (le_refl _)
          (marker.trans (reach.trans right_le)) (le_refl _)
          (Nat.add_le_add_left (RailTree.one_le_rows _) _)
      · exact (first.placed_liesIn (site.inside id startX) _
          (endsBy_branchReach config _ first further) inFirst).mono rules
          (le_add_of_nonneg_right rules.railOffset.le) (reach.trans right_le) (Nat.le_succ _)
          (by change site.row + 1 + first.rows ≤ _; omega)
      · exact (further.placed_liesIn ((site.inside id startX).lowered first.rows) _
          (le_max_right _ _) inFurther).mono rules (le_refl _) (reach.trans right_le)
          (by change site.row ≤ site.row + 1 + first.rows; omega)
          (by change site.row + 1 + first.rows + further.rows ≤ _; omega)
      · exact (site.put_liesIn rules input _ (.branchEnd id) _).mono rules
          ((rules.startX_le_branchReach startX first further).trans (rules.le_behind _)) right_le
          (le_refl _)
          (Nat.add_le_add_left (RailTree.one_le_rows _) _)
      · exact (rest.placed_liesIn site _ restEnds inRest).mono rules
          ((rules.startX_le_branchRight startX first further).trans (rules.le_behind _))
          (le_refl _) (le_refl _)
          (Nat.add_le_add_left (RailTree.rest_rows_le id first further rest) _)

/-- The elements of further rails stand in their rows, not before the start of the branch. -/
theorem FurtherRails.placed_liesIn (site : RailSite) (position : Nat) {right : Rat}
    {placed : LayoutElement Rat} :
    ∀ rails : FurtherRails, rails.reach config site.originX ≤ right →
      placed ∈ rails.placed config input site position →
      placed.LiesIn config input ⟨site.originX, right, site.row, site.row + rails.rows⟩
  | .nil, _, member => absurd member List.not_mem_nil
  | .rail id own others, ends, member => by
      have rows : (FurtherRails.rail id own others).rows = own.rows + others.rows := rfl
      have one_le := own.one_le_rows
      have marker := (FurtherRails.rail id own others).marker_le_reach config site.originX
      rcases mem_placed_rail.mp member with rfl | inOwn | inOthers
      · exact ((site.beside id).put_liesIn rules input position (.branchNext id) _).mono rules
          (le_refl _) (marker.trans ends) (le_refl _) (by change site.row + 1 ≤ _; omega)
      · exact (own.placed_liesIn (site.beside id) _
          (FurtherRails.endsBy_reach config site.originX id own others) inOwn).mono rules
          (le_add_of_nonneg_right rules.railOffset.le) ends (le_refl _)
          (by change site.row + own.rows ≤ _; omega)
      · exact (others.placed_liesIn (site.lowered own.rows) _
          ((le_max_right _ _).trans ends) inOthers).mono rules (le_refl _) (le_refl _)
          (Nat.le_add_right _ _) (by change site.row + own.rows + others.rows ≤ _; omega)

end

/-! ### No two elements overlap -/

section Branch

variable {site : RailSite} {position : Nat} {id : BranchId} {startX : Rat} {first : RailTree}
  (further : FurtherRails) {placed : LayoutElement Rat}

theorem first_liesIn
    (member : placed ∈ first.placed config input (site.inside id startX) position none) :
    placed.LiesIn config input
      ⟨startX + config.railOffset, branchReach config startX first further, site.row + 1,
        site.row + 1 + first.rows⟩ :=
  first.placed_liesIn rules (site.inside id startX) position
    (endsBy_branchReach config startX first further) member

theorem further_liesIn
    (member : placed ∈ further.placed config input ((site.inside id startX).lowered first.rows)
      position) :
    placed.LiesIn config input
      ⟨startX, branchReach config startX first further, site.row + 1 + first.rows,
        site.row + 1 + first.rows + further.rows⟩ :=
  further.placed_liesIn rules ((site.inside id startX).lowered first.rows) position
    (le_max_right _ _) member

/-- What follows inside of a branch is before the end marker, and that before the rest. -/
theorem exists_behind_of_mem {rest : RailTree} {close : Nat}
    (member : placed ∈ site.put config input close (.branchEnd id)
        (config.behind (branchReach config startX first further)) ::
      rest.placed config input site position
        (some (branchRight config startX first further))) :
    ∃ region : Region, placed.LiesIn config input region ∧
      branchReach config startX first further ≤ region.left := by
  have before := rules.le_behind (branchReach config startX first further)
  rcases List.mem_cons.mp member with rfl | inRest
  · exact ⟨_, site.put_liesIn rules input close (.branchEnd id) _, before⟩
  · obtain ⟨edge, ends⟩ := rest.exists_endsBy config site.originX
      (some (branchRight config startX first further))
    exact ⟨_, rest.placed_liesIn rules site position ends inRest,
      (rules.branchReach_le_branchRight startX first further).trans (rules.le_behind _)⟩

end Branch

mutual

/-- The elements of a rail do not overlap. -/
theorem RailTree.placed_apart (site : RailSite) (position : Nat) (last : Option Rat) :
    ∀ tree : RailTree,
      (tree.placed config input site position last).Pairwise LayoutElement.Apart
  | .nil => .nil
  | .instruction content rest => by
      let x := config.itemX site.originX last
      let right := x + (config.sizeOf content.category).width
      obtain ⟨edge, ends⟩ := rest.exists_endsBy config site.originX (some right)
      refine List.pairwise_cons.mpr ⟨fun other member => ?_, rest.placed_apart site _ _⟩
      exact (site.put_liesIn rules input position (.instruction content) x).apart_of_columns
        (rest.placed_liesIn rules site _ ends member) (rules.le_behind right)
  | .branch id first further rest => by
      let startX := config.itemX site.originX last
      let right := branchRight config startX first further
      have marker := marker_le_branchReach config startX first further
      have start := site.put_liesIn rules input position
        (.branchStart id) startX
      obtain ⟨edge, ends⟩ := rest.exists_endsBy config site.originX (some right)
      refine List.pairwise_cons.mpr ⟨fun other member => ?_, List.pairwise_append.mpr
        ⟨first.placed_apart _ _ _, List.pairwise_append.mpr ⟨further.placed_apart _ _,
          List.pairwise_cons.mpr ⟨fun other member => ?_, rest.placed_apart site _ _⟩,
          fun placed inFurther other member => ?_⟩, fun placed inFirst other member => ?_⟩⟩
      · rcases List.mem_append.mp member with inFirst | member
        · exact start.apart_of_rows rules (first_liesIn rules further inFirst) (le_refl _)
        rcases List.mem_append.mp member with inFurther | member
        · exact start.apart_of_rows rules (further_liesIn rules further inFurther)
            (Nat.le_add_right _ _)
        · obtain ⟨region, otherIn, le⟩ := exists_behind_of_mem rules further member
          exact start.apart_of_columns otherIn (marker.trans le)
      · exact (site.put_liesIn rules input _ (.branchEnd id) _).apart_of_columns
          (rest.placed_liesIn rules site _ ends member) (rules.le_behind right)
      · obtain ⟨region, otherIn, le⟩ := exists_behind_of_mem rules further member
        exact (further_liesIn rules further inFurther).apart_of_columns otherIn le
      · rcases List.mem_append.mp member with inFurther | member
        · exact (first_liesIn rules further inFirst).apart_of_rows rules
            (further_liesIn rules further inFurther) (le_refl _)
        · obtain ⟨region, otherIn, le⟩ := exists_behind_of_mem rules further member
          exact (first_liesIn rules further inFirst).apart_of_columns otherIn le

/-- The elements of further rails do not overlap. -/
theorem FurtherRails.placed_apart (site : RailSite) (position : Nat) :
    ∀ rails : FurtherRails,
      (rails.placed config input site position).Pairwise LayoutElement.Apart
  | .nil => .nil
  | .rail id own others => by
      have marker := (site.beside id).put_liesIn rules input position
        (.branchNext id) site.originX
      have ownIn : ∀ placed ∈ own.placed config input (site.beside id) (position + 1) none,
          placed.LiesIn config input
            ⟨site.originX + config.railOffset, (FurtherRails.rail id own others).reach config
              site.originX, site.row, site.row + own.rows⟩ := fun placed member =>
        own.placed_liesIn rules (site.beside id) _
          (FurtherRails.endsBy_reach config site.originX id own others) member
      have othersIn : ∀ placed ∈ others.placed config input (site.lowered own.rows)
          (position + 1 + own.drafts.length), placed.LiesIn config input
            ⟨site.originX, others.reach config site.originX, site.row + own.rows,
              site.row + own.rows + others.rows⟩ := fun placed member =>
        others.placed_liesIn rules (site.lowered own.rows) _ (le_refl _) member
      refine List.pairwise_cons.mpr ⟨fun other member => ?_, List.pairwise_append.mpr
        ⟨own.placed_apart _ _ _, others.placed_apart _ _,
          fun placed inOwn other inOthers => ?_⟩⟩
      · rcases List.mem_append.mp member with inOwn | inOthers
        · exact marker.apart_of_columns (ownIn other inOwn)
            (add_le_add_right rules.room site.originX)
        · exact marker.apart_of_rows rules (othersIn other inOthers)
            (Nat.add_le_add_left own.one_le_rows _)
      · exact (ownIn placed inOwn).apart_of_rows rules (othersIn other inOthers) (le_refl _)

end

end LadderDiagram
