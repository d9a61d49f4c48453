import LadderDiagram.Proofs.Layout.Arena
import LadderDiagram.Proofs.Layout.Streaming

/-!
# Layouts by recursion

The pass over the elements of a rung, which keeps a stack of open branches and writes
records in place, gives the layout that the recursion over the tree of the rung gives:
every element, every record and every measure of the rung.
-/

namespace LadderDiagram

variable {config : LayoutConfig Rat} {input : RungInput Rat}

/-! ### Depth -/

theorem Address.later_ofNat (first second : Nat) :
    (ofNat first).later (ofNat second) = .ofNat (max first second) := by
  unfold later
  rw [isAfter_ofNat, max_def_lt]
  simp only [decide_eq_true_eq]
  split_ifs <;> rfl

/-- The depth of nesting once some records have been looked at. -/
def deepest (depth : Address) (records : List (Branch Rat)) : Address :=
  records.foldl (fun depth branch => depth.later branch.branchLevel.next) depth

theorem deepest_cons (depth : Address) (branch : Branch Rat) (rest : List (Branch Rat)) :
    deepest depth (branch :: rest) = deepest (depth.later branch.branchLevel.next) rest := rfl

theorem deepest_append (depth : Address) (first second : List (Branch Rat)) :
    deepest depth (first ++ second) = deepest (deepest depth first) second :=
  List.foldl_append

mutual

/-- The depth to which the records of a rail take one that is not less than its level. -/
theorem RailTree.deepest_records (site : RailSite) (position : Nat) (last : Option Rat)
    {depth : Nat} (within : site.level ≤ depth) :
    ∀ tree : RailTree, deepest (.ofNat depth) (tree.records config input site position last) =
      .ofNat (max depth (site.level + tree.depth))
  | .nil => by
      rw [RailTree.records, RailTree.depth, Nat.add_zero, max_eq_left within]
      rfl
  | .instruction _ rest => rest.deepest_records site _ _ within
  | .branch id first further rest => by
      let startX := config.itemX site.originX last
      let branch := site.branchRecord config input position id startX first further
      have opens : (Address.ofNat depth).later branch.branchLevel.next =
          .ofNat (max depth (site.level + 1)) := Address.later_ofNat _ _
      have inFirst := first.deepest_records (site.inside id startX) (position + 1) none
        (le_max_right depth (site.level + 1))
      have inFurther := further.deepest_records ((site.inside id startX).lowered first.rows) branch
        rfl (position + 1 + first.drafts.length)
        ((le_max_right depth (site.level + 1)).trans
          (le_max_left _ (site.level + 1 + first.depth)))
      have withinRest : site.level ≤ max (max (max depth (site.level + 1))
          (site.level + 1 + first.depth)) (site.level + 1 + further.depth) := by
        omega
      have behind := rest.deepest_records site
        (position + 1 + first.drafts.length + further.drafts.length + 1)
        (some (branchRight config startX first further)) withinRest
      rw [RailTree.records, deepest_cons, opens, deepest_append, inFirst, deepest_append]
      refine (congrArg (deepest · _) inFurther).trans (behind.trans (congrArg Address.ofNat ?_))
      rw [RailTree.depth]
      omega

theorem FurtherRails.deepest_records (site : RailSite) (branch : Branch Rat)
    (level : branch.branchLevel.next = .ofNat site.level) (position : Nat) {depth : Nat}
    (within : site.level ≤ depth) :
    ∀ rails : FurtherRails,
      deepest (.ofNat depth) (rails.records config input site branch position) =
        .ofNat (max depth (site.level + rails.depth))
  | .nil => by
      rw [FurtherRails.records, FurtherRails.depth, Nat.add_zero, max_eq_left within]
      rfl
  | .rail id own others => by
      have opens : (Address.ofNat depth).later branch.branchLevel.next = .ofNat depth := by
        rw [level, Address.later_ofNat, max_eq_left within]
      have inOwn := own.deepest_records (site.beside id) (position + 1) none within
      have behind := others.deepest_records (site.lowered own.rows) branch level
        (position + 1 + own.drafts.length) (within.trans (le_max_left _ (site.level + own.depth)))
      rw [FurtherRails.records, deepest_cons]
      refine (congrArg (deepest · _) opens).trans ?_
      rw [deepest_append]
      refine (congrArg (deepest · _) inOwn).trans (behind.trans (congrArg Address.ofNat ?_))
      change max (max depth (site.level + own.depth)) (site.level + others.depth) = _
      rw [FurtherRails.depth]
      omega

end

/-- The depth of nesting once some elements have been looked at. -/
def deepestStart (depth : Address) (elements : List Element) : Address :=
  elements.foldl
    (fun depth element =>
      if element.kind = .branchStart then depth.later element.branchLevel.next else depth)
    depth

theorem deepestStart_append (depth : Address) (first second : List Element) :
    deepestStart depth (first ++ second) = deepestStart (deepestStart depth first) second :=
  List.foldl_append

mutual

/-- The depth to which the elements of a rail take one that is not less than its level. -/
theorem RailTree.deepestStart_elements (place : RailPlace) (position : Nat) {depth : Nat}
    (within : place.level ≤ depth) :
    ∀ tree : RailTree, deepestStart (.ofNat depth) (tree.elements place position) =
      .ofNat (max depth (place.level + tree.depth))
  | .nil => by
      rw [RailTree.depth, Nat.add_zero, max_eq_left within]
      rfl
  | .instruction _ rest => rest.deepestStart_elements place _ within
  | .branch id first further rest => by
      have opens : (Address.ofNat depth).later
          (place.element position (.branchStart id)).branchLevel.next =
            .ofNat (max depth (place.level + 1)) := Address.later_ofNat _ _
      have inFirst := first.deepestStart_elements (place.inside id) (position + 1)
        (le_max_right depth (place.level + 1))
      have inFurther := further.deepestStart_elements (place.inside id)
        (position + 1 + first.drafts.length)
        ((le_max_right depth (place.level + 1)).trans
          (le_max_left _ (place.level + 1 + first.depth)))
      have withinRest : place.level ≤ max (max (max depth (place.level + 1))
          (place.level + 1 + first.depth)) (place.level + 1 + further.depth) := by
        omega
      have behind := rest.deepestStart_elements place
        (position + 1 + first.drafts.length + further.drafts.length + 1) withinRest
      change deepestStart ((Address.ofNat depth).later _) (_ ++ _) = _
      rw [opens, deepestStart_append, inFirst, deepestStart_append]
      refine (congrArg (deepestStart · _) inFurther).trans
        (behind.trans (congrArg Address.ofNat ?_))
      rw [RailTree.depth]
      omega

theorem FurtherRails.deepestStart_elements (place : RailPlace) (position : Nat) {depth : Nat}
    (within : place.level ≤ depth) :
    ∀ rails : FurtherRails, deepestStart (.ofNat depth) (rails.elements place position) =
      .ofNat (max depth (place.level + rails.depth))
  | .nil => by
      rw [FurtherRails.depth, Nat.add_zero, max_eq_left within]
      rfl
  | .rail id own others => by
      have inOwn := own.deepestStart_elements (place.beside id) (position + 1) within
      have behind := others.deepestStart_elements place (position + 1 + own.drafts.length)
        (within.trans (le_max_left _ (place.level + own.depth)))
      change deepestStart (.ofNat depth) (_ ++ _) = _
      rw [deepestStart_append, inOwn]
      refine behind.trans (congrArg Address.ofNat ?_)
      rw [FurtherRails.depth]
      omega

end

theorem RailTree.branchDepth_elements (tree : RailTree) :
    branchDepth (tree.elements .main 0) = .ofNat tree.depth := by
  have deep : deepestStart (.ofNat 0) (tree.elements .main 0) = .ofNat (max 0 (0 + tree.depth)) :=
    tree.deepestStart_elements .main 0 (le_refl 0)
  rw [Nat.zero_add, Nat.zero_max] at deep
  exact deep

/-! ### Rungs -/

/-- No item of a rail ends before the rail begins. -/
theorem LayoutConfig.KeepsRules.origin_le_lastRight (rules : config.KeepsRules) (originX : Rat)
    {tree : RailTree} {right : Rat} (member : right ∈ tree.lastRight config originX none) :
    originX ≤ right := by
  have offset := rules.railOffset
  have begins : originX ≤ config.itemX originX none := by
    unfold LayoutConfig.itemX
    linarith
  cases tree with
  | nil => cases member
  | instruction content rest =>
      have width := (rules.element content.category).width
      obtain ⟨further, isLast, le⟩ := rules.reachesTo_lastRight originX _ rest _ rfl
      cases member.symm.trans isLast
      linarith
  | branch id first more rest =>
      have start_le := rules.startX_le_branchRight (config.itemX originX none) first more
      rw [RailTree.lastRight_branch] at member
      obtain ⟨further, isLast, le⟩ := rules.reachesTo_lastRight originX _ rest _ rfl
      cases member.symm.trans isLast
      linarith

/-- Behind the elements of a rung, the pass knows of it what the recursion computes. -/
theorem RailTree.exists_run (rules : config.KeepsRules) (input : RungInput Rat) (tree : RailTree)
    (arena : Arena Rat) :
    ∃ final : LayoutState Rat, (LayoutState.start config arena input).run config input
        (tree.elements .main 0) = .ok final ∧
      final.maxRow + 1 = (tree.rows : Nat) ∧
      final.rightEdge = (tree.lastRight config config.leftRailX none).getD config.leftRailX ∧
      final.placed.reverse = tree.placed config input (.main config) 0 none ∧
      final.pass = ⟨arena, some input.rungNumber, [],
        tree.records config input (.main config) 0 none⟩ := by
  have stands : (LayoutState.start config arena input).StandsOn (.main config) none :=
    ⟨rfl, le_refl _, (fun _ member => by cases member), fun _ member => by cases member⟩
  have streams : tree.Streams config input := tree.streams rules
  have runs := streams _ _ 0 none [] stands
  rw [List.append_nil] at runs
  refine ⟨_, runs, ?rows, ?edge, ?elements, rfl⟩
  case rows =>
    change max (0 : Rat) ((0 + tree.innerRows : Nat) : Rat) + 1 = (tree.rows : Nat)
    rw [Nat.zero_add, max_eq_right (Nat.cast_nonneg _), RailTree.rows]
    push_cast
    ring
  case edge =>
    change widest config.leftRailX (tree.lastRight config config.leftRailX none) = _
    cases last : tree.lastRight config config.leftRailX none with
    | none => rfl
    | some right => exact max_eq_right (rules.origin_le_lastRight config.leftRailX last)
  case elements =>
    change ((tree.placed config input (.main config) 0 none).reverse ++ []).reverse = _
    rw [List.append_nil, List.reverse_reverse]

/-- A rung is laid out as the recursion over its tree lays it out. -/
theorem layoutRung_eq (rules : config.KeepsRules) {tree : RailTree}
    (annotated : input.elements = tree.elements .main 0) (arena : Arena Rat) :
    layoutRung config arena input =
      .ok (tree.layout config input,
        arena.replaceRung input.rungNumber (tree.layout config input).branches) := by
  obtain ⟨final, ends, rowCount, rightEdge, placed, pass⟩ :=
    tree.exists_run rules input arena
  have branchDepth : deepest (.ofNat 0) (tree.records config input (.main config) 0 none) =
      .ofNat tree.depth := by
    have deep : deepest (.ofNat 0) (tree.records config input (.main config) 0 none) =
        .ofNat (max 0 (0 + tree.depth)) := tree.deepest_records (.main config) 0 none (le_refl 0)
    rw [Nat.zero_add, Nat.zero_max] at deep
    exact deep
  unfold deepest at branchDepth
  unfold layoutRung
  rw [annotated, ends]
  simp only [pass, BranchPass.commit, LayoutState.result, Scalar.ofNat_rat, Scalar.max_rat,
    Nat.cast_one, rowCount, rightEdge, placed, branchDepth]
  rfl

/--
Every sequence that can be annotated is that of a tree, and under a valid configuration, at
any height and below any comment, the pass over it gives the layout that the recursion over
the tree gives.
-/
theorem layoutRung_of_annotate (config : LayoutConfig Rat) (valid : config.isValid = true)
    (source : List Draft) (elements : List Element) (annotates : annotate source = .ok elements)
    (number : Address) (y commentLines : Rat) (arena : Arena Rat) :
    (∃ tree : RailTree, tree.drafts = source) ∧
      ∀ tree : RailTree, tree.drafts = source →
        layoutRung config arena ⟨number, y, elements, commentLines⟩ =
          .ok (tree.layout config ⟨number, y, elements, commentLines⟩,
            arena.replaceRung number
              (tree.layout config ⟨number, y, elements, commentLines⟩).branches) := by
  refine ⟨exists_railTree (wellNested_of_annotate annotates), ?_⟩
  rintro tree rfl
  have annotated : elements = tree.elements .main 0 := elements_of_annotate annotates
  have rules := LayoutConfig.keepsRules_of_isValid valid
  exact layoutRung_eq rules annotated arena

/-- A rung with one branch, both rails of which are empty. -/
def sampleRail : RailTree := .branch (.ofNat 0) .nil (.rail (.ofNat 1) .nil .nil) .nil

theorem layoutRung_of_sample :
    ∃ elements, annotate sampleRail.drafts = .ok elements ∧
      ∃ (layout : LayoutResult Rat) (arena : Arena Rat),
        layoutRung .standard .empty ⟨.ofNat 0, 50, elements, 0⟩ = .ok (layout, arena) ∧
        layout.rowCount = 3 ∧ layout.rightEdge = 100 := by
  obtain ⟨elements, annotates⟩ : ∃ elements, annotate sampleRail.drafts = .ok elements :=
    ⟨_, rfl⟩
  have laidOut := (layoutRung_of_annotate .standard (by decide +kernel) sampleRail.drafts elements
    annotates (.ofNat 0) 50 0 .empty).2 sampleRail rfl
  have rows : ((sampleRail.rows : Nat) : Rat) = 3 := by decide +kernel
  have edge : (sampleRail.lastRight (.standard : LayoutConfig Rat)
      LayoutConfig.standard.leftRailX none).getD LayoutConfig.standard.leftRailX = 100 := by
    decide +kernel
  exact ⟨elements, annotates, _, _, laidOut, rows, edge⟩

end LadderDiagram
