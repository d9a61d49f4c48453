import LadderDiagram.Proofs.Layout.Steps

/-!
# The pass follows the recursion

By induction over the tree of a rung: the elements of a rail, and those of the further
rails of a branch, leave the pass where the recursion over the tree says.
-/

namespace LadderDiagram

variable {config : LayoutConfig Rat} {input : RungInput Rat}

open LayoutState

/-- The pass lays out the elements of a rail as the recursion does. -/
def RailTree.Streams (config : LayoutConfig Rat) (input : RungInput Rat) (tree : RailTree) :
    Prop :=
  ∀ (state : LayoutState Rat) (site : RailSite) (position : Nat) (last : Option Rat)
    (after : List Element), state.StandsOn site last →
    state.run config input (tree.elements site.toRailPlace position ++ after) =
      ((state.reached (tree.lastRight config site.originX last)
        ((site.row + tree.innerRows : Nat) : Rat)).recorded
        (tree.placed config input site position last)
        (tree.records config input site position last)).run config input after

/-- The pass lays out the elements of further rails as the recursion does. -/
def FurtherRails.Streams (config : LayoutConfig Rat) (input : RungInput Rat)
    (rails : FurtherRails) : Prop :=
  ∀ (state : LayoutState Rat) (site : RailSite) (position : Nat) (context : OpenContext Rat)
    (outer : List (OpenContext Rat)) (parent : Branch Rat) (after : List Element),
    state.StandsIn config site context outer parent →
    ∃ cursor, state.run config input (rails.elements site.toRailPlace position ++ after) =
      (state.furthered config input site position context outer parent rails cursor).run config
        input after

theorem RailTree.Streams.nil : RailTree.nil.Streams config input := by
  intro state site position last after stands
  rw [RailTree.elements, RailTree.lastRight, RailTree.innerRows, RailTree.placed, RailTree.records,
    recorded_nil, Nat.add_zero, reached_self stands]
  rfl

theorem RailTree.Streams.instruction (rules : config.KeepsRules) {content : Instruction}
    {rest : RailTree} (streams : rest.Streams config input) :
    (RailTree.instruction content rest).Streams config input := by
  intro state site position last after stands
  have reaches := rules.reachesTo_lastRight site.originX
    (some (config.itemX site.originX last + (config.sizeOf content.category).width)) rest
  have row_le : (site.row : Rat) ≤ ((site.row + rest.innerRows : Nat) : Rat) :=
    Nat.cast_le.mpr (Nat.le_add_right _ _)
  rw [RailTree.elements, List.cons_append, run_cons (step_instruction stands position content),
    streams _ site (position + 1) _ after ((stands.reached _ _).recorded _ _), reached_recorded,
    recorded_recorded, reached_reached reaches, max_eq_right row_le]
  rfl

theorem FurtherRails.Streams.nil : FurtherRails.nil.Streams config input := by
  intro state site position context outer parent after stands
  obtain ⟨⟨arena, rung, contexts, records⟩, mainRail, maxRow, rightEdge, placed⟩ := state
  obtain ⟨rfl, found, origin, row, row_le, marker_le, right_le⟩ := stands
  refine ⟨context.rail, ?_⟩
  cases parent
  have same := set_of_getElem? found
  dsimp only at same row_le right_le
  simp only [furthered, FurtherRails.blocks, FurtherRails.rows, FurtherRails.reach,
    FurtherRails.ids, FurtherRails.placed, FurtherRails.elements, BranchPass.headPlaces, same,
    BranchPass.joined, List.flatMap_nil, List.append_nil, List.nil_append, Nat.cast_zero, add_zero,
    max_eq_left marker_le, max_eq_left row_le, max_eq_left (marker_le.trans right_le),
    List.reverse_nil]

theorem FurtherRails.Streams.rail {id : BranchId} {own : RailTree} {others : FurtherRails}
    (ownStreams : own.Streams config input) (streams : others.Streams config input) :
    (FurtherRails.rail id own others).Streams config input := by
  intro state site position context outer parent after stands
  have opens := step_branchNext config input stands.opened stands.found
    stands.origin stands.row position id own
  have runsOwn := ownStreams _ _ (position + 1) _
    (others.elements site.toRailPlace (position + 1 + own.drafts.length) ++ after)
    (standsOn_besides config input state site position id context outer parent own)
  obtain ⟨cursor, runs⟩ := streams _ _ (position + 1 + own.drafts.length) _ _ _ after
    (standsIn_pastRail stands position id own)
  rw [furthered_pastRail stands position id own] at runs
  refine ⟨cursor, ?_⟩
  rw [FurtherRails.elements, List.cons_append, List.append_assoc]
  exact (run_cons opens _).trans (runsOwn.trans runs)

/-- The elements of a branch, behind its start marker, are laid out up to its end marker. -/
theorem run_entered (rules : config.KeepsRules) {first : RailTree} {further : FurtherRails}
    (firstStreams : first.Streams config input) (furtherStreams : further.Streams config input)
    {state : LayoutState Rat} {site : RailSite} {startX : Rat}
    (stands : state.StandsOn site (some (startX + config.sizes.branchMarker.width)))
    (position : Nat) (id : BranchId) (after : List Element) :
    (state.entered config input site position id startX).run config input
        (first.elements (site.inside id startX).toRailPlace (position + 1) ++
          (further.elements (site.inside id startX).toRailPlace
              (position + 1 + first.drafts.length) ++
            site.element (position + 1 + first.drafts.length + further.drafts.length)
              (.branchEnd id) :: after)) =
      (state.pastBranch config input site position id startX first further).run config input
        after := by
  have runsFirst := firstStreams _ _ (position + 1) _
    (further.elements (site.inside id startX).toRailPlace (position + 1 + first.drafts.length) ++
      site.element (position + 1 + first.drafts.length + further.drafts.length)
        (.branchEnd id) :: after)
    (standsOn_entered config input state site position id startX)
  obtain ⟨cursor, runsFurther⟩ := furtherStreams _ _ (position + 1 + first.drafts.length) _ _ _
    (site.element (position + 1 + first.drafts.length + further.drafts.length)
      (.branchEnd id) :: after)
    (standsIn_pastFirst input site position id startX first
      (stands.last_le _ rfl))
  have closes := step_pastRails input position id startX first further cursor rules
    stands
  exact runsFirst.trans (runsFurther.trans (run_cons closes after))

theorem RailTree.Streams.branch (rules : config.KeepsRules) {id : BranchId} {first : RailTree}
    {further : FurtherRails} {rest : RailTree} (firstStreams : first.Streams config input)
    (furtherStreams : further.Streams config input) (streams : rest.Streams config input) :
    (RailTree.branch id first further rest).Streams config input := by
  intro state site position last after stands
  have begun := stands.reached
    (some (config.itemX site.originX last + config.sizes.branchMarker.width)) site.row
  have reaches := (marker_le_branchReach config (config.itemX site.originX last) first
    further).trans (rules.branchReach_le_branchRight _ first further)
  have reachesLast := rules.reachesTo_lastRight site.originX
    (some (branchRight config (config.itemX site.originX last) first further)) rest
  have row_le : (site.row : Rat) ≤ site.lowestRow first further := by
    rw [RailSite.lowestRow, Nat.add_assoc, Nat.add_assoc]
    exact Nat.cast_le.mpr (Nat.le_add_right _ _)
  have rows : max (site.lowestRow first further : Rat) ((site.row + rest.innerRows : Nat) : Rat) =
      ((site.row + (RailTree.branch id first further rest).innerRows : Nat) : Rat) := by
    rw [← Nat.cast_max, RailSite.lowestRow, RailTree.innerRows, ← Nat.add_max_add_left,
      Nat.add_assoc, Nat.add_assoc, Nat.add_assoc]
  have runsRest (placed : List (LayoutElement Rat)) (records : List (Branch Rat)) := streams _ site
    (position + 1 + first.drafts.length + further.drafts.length + 1) _ after
    ((stands.reached
      (some (branchRight config (config.itemX site.originX last) first further))
      (site.lowestRow first further)).recorded placed records)
  rw [RailTree.elements, List.cons_append, List.append_assoc, List.append_assoc, List.cons_append,
    run_cons (step_branchStart stands position id)]
  refine (run_entered rules firstStreams furtherStreams begun position id _).trans ?_
  rw [pastBranch, reached_reached (reachesTo_some reaches), max_eq_right row_le, runsRest,
    reached_recorded, recorded_recorded, reached_reached reachesLast, rows,
    RailTree.lastRight_branch, RailTree.placed, RailTree.records]
  simp only [RailSite.placedBeforeEnd, RailSite.branchRecords, List.cons_append,
    List.append_assoc, List.nil_append]

mutual

theorem RailTree.streams (rules : config.KeepsRules) :
    ∀ tree : RailTree, tree.Streams config input
  | .nil => .nil
  | .instruction _ rest => .instruction rules (rest.streams rules)
  | .branch _ first further rest =>
      .branch rules (first.streams rules) (further.streams rules) (rest.streams rules)

theorem FurtherRails.streams (rules : config.KeepsRules) :
    ∀ rails : FurtherRails, rails.Streams config input
  | .nil => .nil
  | .rail _ own others => .rail (own.streams rules) (others.streams rules)

end

end LadderDiagram
