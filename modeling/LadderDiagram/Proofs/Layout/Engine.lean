import LadderDiagram.Layout.Engine
import LadderDiagram.Proofs.Layout.Pass

/-!
# Layouts of well-nested sequences

The layout of a rung fails only where a marker does not pair up, so a well-nested
sequence has one.  It does not look into the arena: the layout is the same whatever
other rungs have left there, and the arena gets the records of this rung, which
carry its number and its handles in the order of their markers.
-/

namespace LadderDiagram

variable {α : Type} [Scalar α] {input : RungInput α}

namespace LayoutState

open BranchPass

variable {state : LayoutState α} {number : Address} {opened met : List BranchId}
  (config : LayoutConfig α)

omit [Scalar α] in
theorem tracks_mapRail (tracks : Tracks number opened met state.pass)
    (change : RailCursor α → RailCursor α) :
    Tracks number opened met (state.mapRail change).pass := by
  unfold mapRail
  cases state.pass.top? with
  | none => exact tracks
  | some context => exact tracks.mapTop (fun _ => rfl) (fun _ => rfl)

theorem tracks_takePlace (tracks : Tracks number opened met state.pass) (width : α) :
    Tracks number opened met (state.takePlace config width).2.pass :=
  (tracks_mapRail tracks _).mapTop (fun _ => rfl) (fun _ => rfl)

/-- An element whose marker pairs up is laid out. -/
theorem exists_step (tracks : Tracks input.rungNumber opened met state.pass) {element : Element}
    {after : List BranchId} (pairsUp : branchesAfterDraft? opened element.draft = some after) :
    ∃ next, state.step config input element = .ok next ∧
      Tracks input.rungNumber after (met ++ element.draft.openedRail?.toList) next.pass := by
  unfold step
  cases kind : element.draft with
  | instruction content =>
      rw [kind] at pairsUp
      obtain rfl := Option.some.inj pairsUp
      refine ⟨_, rfl, ?_⟩
      change Tracks input.rungNumber opened (met ++ []) _
      rw [List.append_nil]
      exact tracks_takePlace config tracks _
  | branchStart id =>
      rw [kind] at pairsUp
      obtain rfl := Option.some.inj pairsUp
      exact ⟨_, rfl, (tracks_takePlace config tracks _).openBranch id element _ rfl⟩
  | branchNext id =>
      rw [kind] at pairsUp
      cases opened with
      | nil => cases pairsUp
      | cons innermost outer =>
          obtain rfl := Option.some.inj pairsUp
          obtain ⟨child, next, lowered, tracksNext⟩ :=
            tracks.nextRail id element.position (input.rowY config)
          dsimp only
          rw [lowered]
          exact ⟨_, rfl, tracksNext⟩
  | branchEnd id =>
      rw [kind] at pairsUp
      cases opened with
      | nil => cases pairsUp
      | cons innermost outer =>
          by_cases same : innermost = id
          · subst same
            have left : outer = after := by simpa [branchesAfterDraft?] using pairsUp
            subst left
            obtain ⟨closed, context, next, closes, tracksNext⟩ :=
              tracks.closeBranch element.position fun context _ =>
                ⟨context.maxRight + config.elementSpacing + config.minimumWireLength +
                    config.sizes.branchMarker.width,
                  input.rowY config context.maxRow + config.branchSpacing - Scalar.ofNat 1⟩
            dsimp only
            rw [closes]
            refine ⟨_, rfl, ?_⟩
            change Tracks input.rungNumber outer (met ++ []) _
            rw [List.append_nil]
            exact tracks_mapRail tracksNext _
          · simp [branchesAfterDraft?, same] at pairsUp

/-- A run of elements whose markers pair up is laid out. -/
theorem exists_run {elements : List Element}
    (tracks : Tracks input.rungNumber opened met state.pass) {after : List BranchId}
    (pairsUp : branchesAfter? opened (drafts elements) = some after) :
    ∃ next, state.run config input elements = .ok next ∧
      Tracks input.rungNumber after (met ++ openedIds (drafts elements)) next.pass := by
  induction elements generalizing state opened met with
  | nil =>
      cases pairsUp
      refine ⟨state, rfl, ?_⟩
      change Tracks input.rungNumber after (met ++ []) state.pass
      rw [List.append_nil]
      exact tracks
  | cons element rest ih =>
      change branchesAfter? opened (element.draft :: drafts rest) = some after at pairsUp
      rw [branchesAfter?_cons] at pairsUp
      obtain ⟨between, here, others⟩ := Option.bind_eq_some_iff.mp pairsUp
      obtain ⟨next, steps, tracksNext⟩ := exists_step config tracks here
      obtain ⟨final, runs, tracksFinal⟩ := ih tracksNext others
      refine ⟨final, ?_, ?_⟩
      · rw [run, steps]
        exact runs
      · change Tracks _ _ (met ++ openedIds (element.draft :: drafts rest)) _
        rw [WalkState.openedIds_cons, ← List.append_assoc]
        exact tracksFinal

/-! ### The arena stays out of it -/

/-- The layout with another arena behind it. -/
def under (arena : Arena α) (state : LayoutState α) : LayoutState α :=
  { state with pass := { state.pass with arena := arena } }

theorem step_under (input : RungInput α) (arena : Arena α) (state : LayoutState α)
    (element : Element) :
    (state.under arena).step config input element =
      (state.step config input element).map (under arena) := by
  obtain ⟨⟨own, rung, contexts, records⟩, mainRail, maxRow, rightEdge, placed⟩ := state
  unfold step
  cases element.draft with
  | instruction content => cases contexts <;> rfl
  | branchStart id => cases contexts <;> rfl
  | branchNext id =>
      cases contexts with
      | nil => rfl
      | cons context outer =>
          simp only [under, BranchPass.nextRail]
          cases records[context.slot]? <;> rfl
  | branchEnd id =>
      cases contexts with
      | nil => rfl
      | cons context outer =>
          simp only [under, BranchPass.closeBranch]
          cases records[context.slot]? with
          | none => rfl
          | some record =>
              by_cases same : record.id = id
              · simp only [same, ne_eq, not_true_eq_false, if_false]
                cases outer <;> rfl
              · simp only [same, ne_eq, not_false_eq_true, if_true]
                rfl

theorem run_under (input : RungInput α) (arena : Arena α) (state : LayoutState α)
    (elements : List Element) :
    (state.under arena).run config input elements =
      (state.run config input elements).map (under arena) := by
  induction elements generalizing state with
  | nil => rfl
  | cons element rest ih =>
      rw [run, run, step_under]
      cases state.step config input element with
      | error error => rfl
      | ok next => exact ih next

end LayoutState

/--
The layout of a rung, whatever is in the arena.  Its branches carry the number of the
rung and its handles, and they replace those of the rung in the arena.
-/
structure LayoutResult.IsOf (config : LayoutConfig α) (input : RungInput α)
    (layout : LayoutResult α) : Prop where
  laidOut : ∀ arena : Arena α, layoutRung config arena input =
    .ok (layout, arena.replaceRung input.rungNumber layout.branches)
  ids_eq : layout.branches.map (·.id) = openedIds (drafts input.elements)
  numbered : ∀ branch ∈ layout.branches, branch.rungNumber = input.rungNumber

theorem LayoutResult.IsOf.unique {config : LayoutConfig α} {layout other : LayoutResult α}
    (isOf : layout.IsOf config input) (otherIsOf : other.IsOf config input) : layout = other := by
  have same := (isOf.laidOut .empty).symm.trans (otherIsOf.laidOut .empty)
  exact congrArg Prod.fst (Except.ok.inj same)

/-- A pass whose outcome is a layout has gone through all elements and left no branch open. -/
theorem exists_run_of_layoutRung {config : LayoutConfig α} {arena after : Arena α}
    {layout : LayoutResult α} (laidOut : layoutRung config arena input = .ok (layout, after)) :
    ∃ final : LayoutState α,
      (LayoutState.start config arena input).run config input input.elements = .ok final ∧
        final.pass.contexts = [] ∧ final.result config input final.pass.records = layout := by
  unfold layoutRung at laidOut
  cases runs : (LayoutState.start config arena input).run config input input.elements with
  | error error =>
      rw [runs] at laidOut
      cases laidOut
  | ok final =>
      rw [runs] at laidOut
      dsimp only [BranchPass.commit] at laidOut
      cases contexts : final.pass.contexts with
      | cons context outer =>
          rw [contexts] at laidOut
          cases laidOut
      | nil =>
          rw [contexts] at laidOut
          exact ⟨final, rfl, contexts, (Prod.mk.inj (Except.ok.inj laidOut)).1⟩

/-- The pass of which a layout is the outcome. -/
theorem LayoutResult.IsOf.exists_run {config : LayoutConfig α} {layout : LayoutResult α}
    (isOf : layout.IsOf config input) :
    ∃ final : LayoutState α,
      (LayoutState.start config .empty input).run config input input.elements = .ok final ∧
        final.result config input final.pass.records = layout := by
  obtain ⟨final, runs, _, result⟩ := exists_run_of_layoutRung (isOf.laidOut .empty)
  exact ⟨final, runs, result⟩

theorem LayoutResult.IsOf.y_eq {config : LayoutConfig α} {layout : LayoutResult α}
    (isOf : layout.IsOf config input) : layout.y = input.y := by
  obtain ⟨final, _, rfl⟩ := isOf.exists_run
  rfl

/-- A sequence whose branches all close has a layout. -/
theorem exists_isOf_of_closes (config : LayoutConfig α) (input : RungInput α)
    (closes : branchesAfter? [] (drafts input.elements) = some []) :
    ∃ layout : LayoutResult α, layout.IsOf config input := by
  have begun : BranchPass.Tracks input.rungNumber [] []
      (LayoutState.start config .empty input).pass := BranchPass.tracks_start _ _
  obtain ⟨final, runs, tracks⟩ := LayoutState.exists_run config begun closes
  have none : final.pass.contexts = [] := List.map_eq_nil_iff.mp tracks.opened_eq
  have everywhere (arena : Arena α) :
      (LayoutState.start config arena input).run config input input.elements =
        .ok (final.under arena) := by
    have moved := LayoutState.run_under config input arena
      (LayoutState.start config .empty input) input.elements
    rw [runs] at moved
    exact moved
  refine ⟨final.result config input final.pass.records, ?_, tracks.ids_eq, tracks.numbered⟩
  intro arena
  unfold layoutRung
  rw [everywhere arena]
  simp only [BranchPass.commit, LayoutState.under, none, tracks.rung_eq]
  rfl

/-- A well-nested sequence has a layout. -/
theorem exists_isOf (config : LayoutConfig α) (input : RungInput α)
    (nested : WellNested (drafts input.elements)) :
    ∃ layout : LayoutResult α, layout.IsOf config input :=
  exists_isOf_of_closes config input nested.closes

end LadderDiagram
