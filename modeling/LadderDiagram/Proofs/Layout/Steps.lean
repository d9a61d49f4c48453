import LadderDiagram.Proofs.List
import LadderDiagram.Proofs.Layout.Blocks
import LadderDiagram.Proofs.Layout.Tracking

/-!
# Steps of a pass

What each element does to the pass, and what a branch does to it from its start marker to
its end marker: behind the branch the pass stands on the rail around it as if the branch
were one item, and the records of the branch are complete.
-/

namespace LadderDiagram

variable {config : LayoutConfig Rat} {input : RungInput Rat}

namespace RailSite

/-- The elements of a branch that stands at `startX` on a rail, before its end marker. -/
def placedBeforeEnd (site : RailSite) (config : LayoutConfig Rat) (input : RungInput Rat)
    (position : Nat) (id : BranchId) (startX : Rat) (first : RailTree) (further : FurtherRails) :
    List (LayoutElement Rat) :=
  site.put config input position (.branchStart id) startX ::
    (first.placed config input (site.inside id startX) (position + 1) none ++
      further.placed config input ((site.inside id startX).lowered first.rows)
        (position + 1 + first.drafts.length))

/-- The record of a branch that stands at `startX` on a rail, and the records inside it. -/
def branchRecords (site : RailSite) (config : LayoutConfig Rat) (input : RungInput Rat)
    (position : Nat) (id : BranchId) (startX : Rat) (first : RailTree) (further : FurtherRails) :
    List (Branch Rat) :=
  site.branchRecord config input position id startX first further ::
    (first.records config input (site.inside id startX) (position + 1) none ++
      further.records config input ((site.inside id startX).lowered first.rows)
        (site.branchRecord config input position id startX first further)
        (position + 1 + first.drafts.length))

/-- The lowest row of a branch on a rail. -/
def lowestRow (site : RailSite) (first : RailTree) (further : FurtherRails) : Nat :=
  site.row + 1 + first.innerRows + further.rows

end RailSite

namespace LayoutState

variable {state : LayoutState Rat} {site : RailSite} {last : Option Rat}

/-! ### Steps -/

theorem step_instruction (stands : state.StandsOn site last) (position : Nat)
    (content : Instruction) :
    state.step config input (site.element position (.instruction content)) =
      .ok ((state.reached
          (some (config.itemX site.originX last + (config.sizeOf content.category).width))
          site.row).recorded
        [site.put config input position (.instruction content)
          (config.itemX site.originX last)] []) := by
  unfold step
  simp only [RailPlace.element, takePlace_eq stands, stands.rail]
  unfold recorded
  rw [List.append_nil]
  rfl

/-- A state in which a branch has just been opened at `startX`. -/
def entered (state : LayoutState Rat) (config : LayoutConfig Rat) (input : RungInput Rat)
    (site : RailSite) (position : Nat) (id : BranchId) (startX : Rat) : LayoutState Rat :=
  { state with
    pass := { state.pass with
      contexts :=
        site.openContext config id startX state.pass.records.length :: state.pass.contexts
      records := state.pass.records ++ [site.openRecord config input position id startX] }
    maxRow := max state.maxRow ((site.row + 1 : Nat) : Rat)
    placed := site.put config input position (.branchStart id) startX :: state.placed }

theorem step_branchStart (stands : state.StandsOn site last) (position : Nat) (id : BranchId) :
    state.step config input (site.element position (.branchStart id)) =
      .ok ((state.reached (some (config.itemX site.originX last +
          config.sizes.branchMarker.width)) site.row).entered config input site position id
        (config.itemX site.originX last)) := by
  unfold step
  have row : (site.row : Rat) + 1 = ((site.row + 1 : Nat) : Rat) := (Nat.cast_succ site.row).symm
  simp only [RailPlace.element, takePlace_eq stands, stands.rail, RailSite.cursor,
    Scalar.ofNat_rat, Nat.cast_one, Scalar.max_rat, row]
  rfl

/-- A state in which a further rail of the innermost branch has just been begun. -/
def besides (state : LayoutState Rat) (config : LayoutConfig Rat) (input : RungInput Rat)
    (site : RailSite) (position : Nat) (id : BranchId) (context : OpenContext Rat)
    (outer : List (OpenContext Rat)) (parent : Branch Rat) (own : RailTree) : LayoutState Rat :=
  { state with
    pass := { state.pass with
      contexts := context.onRail (site.beside id) state.pass.records.length :: outer
      records :=
        state.pass.records.set context.slot { parent with childIds := parent.childIds ++ [id] } ++
          [parent.openRailRecord config input position id site.row own] }
    maxRow := max state.maxRow (site.row : Rat)
    placed :=
      (site.beside id).put config input position (.branchNext id) site.originX :: state.placed }

variable (config input) in
theorem step_branchNext {context : OpenContext Rat} {outer : List (OpenContext Rat)}
    {parent : Branch Rat} (opened : state.pass.contexts = context :: outer)
    (found : state.pass.records[context.slot]? = some parent)
    (origin : parent.startX = site.originX) (row : context.maxRow + 1 = site.row) (position : Nat)
    (id : BranchId) (own : RailTree) :
    state.step config input ((site.beside id).element position (.branchNext id)) =
      .ok (state.besides config input site position id context outer parent own) := by
  unfold step besides
  simp only [RailPlace.element, BranchPass.nextRail, opened, found, Scalar.ofNat_rat,
    Nat.cast_one, row, origin, Scalar.max_rat, Branch.openRailRecord]
  rfl

/-- The bounds of a branch that is closed now. -/
def closingOf (config : LayoutConfig Rat) (input : RungInput Rat) (context : OpenContext Rat) :
    BranchClosing Rat :=
  ⟨config.behind context.maxRight + config.sizes.branchMarker.width,
    input.rowY config context.maxRow + config.branchSpacing - 1⟩

/-- A state without its innermost branch, and with other records. -/
def left (state : LayoutState Rat) (outer : List (OpenContext Rat))
    (records : List (Branch Rat)) : LayoutState Rat :=
  { state with pass := { state.pass with contexts := outer, records := records } }

theorem closingOf_eq {context : OpenContext Rat} {row : Nat}
    (bottom : context.maxRow + 1 = row) :
    closingOf config input context =
      ⟨config.behind context.maxRight + config.sizes.branchMarker.width,
        input.rowY config row - 1⟩ := by
  unfold closingOf RungInput.rowY
  rw [← bottom]
  congr 1
  ring

theorem step_branchEnd {context : OpenContext Rat} {outer : List (OpenContext Rat)}
    {branch : Branch Rat} (opened : state.pass.contexts = context :: outer)
    (found : state.pass.records[context.slot]? = some branch)
    (row_le : context.maxRow ≤ state.maxRow)
    (rail : (state.left outer state.pass.records).rail = site.cursor last) (position : Nat) :
    state.step config input (site.element position (.branchEnd branch.id)) =
      .ok (((state.left outer (BranchPass.setAll
          (state.pass.records.set context.slot
            { branch with
              endPosition := .ofNat position
              endX := (closingOf config input context).endX
              endY := (closingOf config input context).endY })
          context.children
          (BranchPass.finishChildren (.ofNat position) (closingOf config input context)
            (state.pass.childrenOf context)))).reached
              (some (closingOf config input context).endX) context.maxRow).recorded
        [site.put config input position (.branchEnd branch.id) (config.behind context.maxRight)]
        []) := by
  obtain ⟨⟨arena, rung, contexts, records⟩, mainRail, maxRow, rightEdge, placed⟩ := state
  obtain rfl : contexts = context :: outer := opened
  unfold step
  simp only [RailPlace.element, BranchPass.closeBranch, found, ne_eq, not_true_eq_false, if_false]
  cases outer with
  | nil =>
      obtain rfl : mainRail = site.cursor last := rail
      simp only [left, reached, recorded, widest, max_eq_left row_le, List.append_nil,
        Scalar.max_rat, Scalar.ofNat_rat, Nat.cast_one]
      rfl
  | cons parent outer =>
      obtain ⟨slot, own, children, maxRight, ownRow⟩ := parent
      obtain rfl : own = site.cursor last := rail
      simp only [left, reached, OpenContext.reached, recorded, widest, max_eq_left row_le,
        List.append_nil, Scalar.max_rat, Scalar.ofNat_rat, Nat.cast_one]
      rfl

theorem run_cons {next : LayoutState Rat} {element : Element}
    (steps : state.step config input element = .ok next) (rest : List Element) :
    state.run config input (element :: rest) = next.run config input rest := by
  rw [run, steps]

/-- A state behind the further rails of its innermost branch. -/
def furthered (state : LayoutState Rat) (config : LayoutConfig Rat) (input : RungInput Rat)
    (site : RailSite) (position : Nat) (context : OpenContext Rat)
    (outer : List (OpenContext Rat)) (parent : Branch Rat) (rails : FurtherRails)
    (cursor : RailCursor Rat) : LayoutState Rat :=
  let blocks := rails.blocks config input site (parent.openRailRecord config input) position
  { state with
    pass := { state.pass with
      contexts :=
        { context with
          rail := cursor
          children :=
            context.children ++ BranchPass.headPlaces state.pass.records.length blocks
          maxRight := max context.maxRight (rails.reach config site.originX)
          maxRow := context.maxRow + rails.rows } :: outer
      records :=
        state.pass.records.set context.slot
          { parent with childIds := parent.childIds ++ rails.ids } ++ BranchPass.joined blocks }
    maxRow := max state.maxRow (context.maxRow + rails.rows)
    rightEdge := max state.rightEdge (rails.reach config site.originX)
    placed := (rails.placed config input site position).reverse ++ state.placed }

/-- The pass stands in a branch, before further rails of it, the first of them on `site`. -/
structure StandsIn (state : LayoutState Rat) (config : LayoutConfig Rat) (site : RailSite)
    (context : OpenContext Rat) (outer : List (OpenContext Rat)) (parent : Branch Rat) :
    Prop where
  opened : state.pass.contexts = context :: outer
  found : state.pass.records[context.slot]? = some parent
  origin : parent.startX = site.originX
  row : context.maxRow + 1 = site.row
  row_le : context.maxRow ≤ state.maxRow
  marker_le : site.originX + config.sizes.branchMarker.width ≤ context.maxRight
  right_le : context.maxRight ≤ state.rightEdge

/-- A state behind one further rail of the innermost branch. -/
def pastRail (state : LayoutState Rat) (config : LayoutConfig Rat) (input : RungInput Rat)
    (site : RailSite) (position : Nat) (id : BranchId) (context : OpenContext Rat)
    (outer : List (OpenContext Rat)) (parent : Branch Rat) (own : RailTree) : LayoutState Rat :=
  ((state.besides config input site position id context outer parent own).reached
    (own.lastRight config site.originX none) ((site.row + own.innerRows : Nat) : Rat)).recorded
    (own.placed config input (site.beside id) (position + 1) none)
    (own.records config input (site.beside id) (position + 1) none)

variable (config input state site) in
theorem standsOn_besides (position : Nat) (id : BranchId) (context : OpenContext Rat)
    (outer : List (OpenContext Rat)) (parent : Branch Rat) (own : RailTree) :
    (state.besides config input site position id context outer parent own).StandsOn
      (site.beside id) none := by
  refine ⟨rfl, le_max_right _ _, (fun _ member => by cases member), ?_⟩
  rintro _ ⟨⟩
  exact ⟨le_refl _, fun _ member => by cases member⟩

section PastRail

variable {context : OpenContext Rat} {outer : List (OpenContext Rat)} {parent : Branch Rat}
  (stands : state.StandsIn config site context outer parent) (position : Nat) (id : BranchId)
  (own : RailTree)

include stands

/-- Behind a further rail, the pass stands before the next one. -/
theorem standsIn_pastRail :
    (state.pastRail config input site position id context outer parent own).StandsIn config
      (site.lowered own.rows)
      ((context.onRail (site.beside id) state.pass.records.length).reached
        (own.lastRight config site.originX none) ((site.row + own.innerRows : Nat) : Rat))
      outer { parent with childIds := parent.childIds ++ [id] } := by
  have bounded := (List.getElem?_eq_some_iff.mp stands.found).1
  have lower : (site.row : Rat) ≤ ((site.row + own.innerRows : Nat) : Rat) :=
    Nat.cast_le.mpr (Nat.le_add_right _ _)
  refine ⟨rfl, ?_, stands.origin, ?_, ?_, ?_, ?_⟩
  · change ((state.pass.records.set context.slot _ ++ [_]) ++ _)[context.slot]? = _
    rw [List.append_assoc, List.getElem?_append_left (by rw [List.length_set]; exact bounded),
      List.getElem?_set_self bounded]
  · change max (site.row : Rat) _ + 1 = ((site.row + (1 + own.innerRows) : Nat) : Rat)
    rw [max_eq_right lower]
    push_cast
    ring
  · change max (site.row : Rat) _ ≤ max (max state.maxRow (site.row : Rat)) _
    exact max_le_max_right _ (le_max_right _ _)
  · exact stands.marker_le.trans (le_widest _ _)
  · exact widest_mono stands.right_le _

/-- One further rail and then the others are all of them. -/
theorem furthered_pastRail (others : FurtherRails) (cursor : RailCursor Rat) :
    (state.pastRail config input site position id context outer parent own).furthered config input
        (site.lowered own.rows) (position + 1 + own.drafts.length)
        ((context.onRail (site.beside id) state.pass.records.length).reached
          (own.lastRight config site.originX none) ((site.row + own.innerRows : Nat) : Rat))
        outer { parent with childIds := parent.childIds ++ [id] } others cursor =
      state.furthered config input site position context outer parent (.rail id own others)
        cursor := by
  have bounded := (List.getElem?_eq_some_iff.mp stands.found).1
  have lower : (site.row : Rat) ≤ ((site.row + own.innerRows : Nat) : Rat) :=
    Nat.cast_le.mpr (Nat.le_add_right _ _)
  have rows : ((site.row + own.innerRows : Nat) : Rat) + others.rows =
      context.maxRow + ((FurtherRails.rail id own others).rows : Nat) := by
    have row := stands.row
    rw [FurtherRails.rows]
    push_cast
    linarith
  -- Every rail notes how far it reaches; what the later ones note makes up for the earlier ones.
  have lowest (edge : Rat) :
      max (max (max edge (site.row : Rat)) ((site.row + own.innerRows : Nat) : Rat))
          (context.maxRow + ((FurtherRails.rail id own others).rows : Nat)) =
        max edge (context.maxRow + ((FurtherRails.rail id own others).rows : Nat)) := by
    have above : ((site.row + own.innerRows : Nat) : Rat) ≤
        ((site.row + own.innerRows : Nat) : Rat) + others.rows :=
      le_add_of_nonneg_right (Nat.cast_nonneg _)
    rw [rows] at above
    rw [max_assoc, max_eq_right above, max_assoc, max_eq_right (lower.trans above)]
  have reach (edge : Rat)
      (marker_le : site.originX + config.sizes.branchMarker.width ≤ edge) :
      max (widest edge (own.lastRight config site.originX none))
          (others.reach config site.originX) =
        max edge ((FurtherRails.rail id own others).reach config site.originX) := by
    rw [widest_eq_max_railReach marker_le, max_assoc, FurtherRails.reach]
  have sameRow : max ((site.beside id).row : Rat) ((site.row + own.innerRows : Nat) : Rat) =
      ((site.row + own.innerRows : Nat) : Rat) := max_eq_right lower
  have sameSite : (site.lowered own.rows).originX = site.originX := rfl
  have replaced (first second : Branch Rat) (later : List (Branch Rat)) :
      (state.pass.records.set context.slot first ++ later).set context.slot second =
        state.pass.records.set context.slot second ++ later := by
    rw [List.set_append_left _ _ (by rw [List.length_set]; exact bounded), List.set_set]
  simp only [furthered, pastRail, besides, reached, OpenContext.reached, OpenContext.onRail,
    recorded, reach _ stands.marker_le, reach _ (stands.marker_le.trans stands.right_le), sameRow,
    rows, lowest, sameSite]
  simp only [FurtherRails.blocks, FurtherRails.ids, FurtherRails.placed, BranchPass.headPlaces,
    BranchPass.joined, List.flatMap_cons, List.reverse_cons, List.reverse_append,
    List.length_append, List.length_set, List.append_assoc, replaced, List.length_cons,
    List.cons_append, List.nil_append]
  rfl

end PastRail

section PastRails

variable (position : Nat) (id : BranchId) (startX : Rat) (first : RailTree)
  (further : FurtherRails) (cursor : RailCursor Rat)

/-- A state behind the first rail of a branch that has been opened at `startX`. -/
def pastFirst (state : LayoutState Rat) (config : LayoutConfig Rat) (input : RungInput Rat)
    (site : RailSite) (position : Nat) (id : BranchId) (startX : Rat) (first : RailTree) :
    LayoutState Rat :=
  ((state.entered config input site position id startX).reached
    (first.lastRight config startX none) ((site.row + 1 + first.innerRows : Nat) : Rat)).recorded
    (first.placed config input (site.inside id startX) (position + 1) none)
    (first.records config input (site.inside id startX) (position + 1) none)

/-- The branch behind its first rail. -/
def pastFirstContext (state : LayoutState Rat) (config : LayoutConfig Rat) (site : RailSite)
    (id : BranchId) (startX : Rat) (first : RailTree) : OpenContext Rat :=
  (site.openContext config id startX state.pass.records.length).reached
    (first.lastRight config startX none) ((site.row + 1 + first.innerRows : Nat) : Rat)

variable (config input state site) in
theorem standsOn_entered :
    (state.entered config input site position id startX).StandsOn (site.inside id startX) none := by
  refine ⟨rfl, le_max_right _ _, (fun _ member => by cases member), ?_⟩
  rintro _ ⟨⟩
  exact ⟨le_refl _, fun _ member => by cases member⟩

variable (input site) in
/-- Behind the first rail of a branch, the pass stands before its further rails. -/
theorem standsIn_pastFirst
    (edge_le : startX + config.sizes.branchMarker.width ≤ state.rightEdge) :
    (state.pastFirst config input site position id startX first).StandsIn config
      ((site.inside id startX).lowered first.rows)
      (state.pastFirstContext config site id startX first) state.pass.contexts
      (site.openRecord config input position id startX) := by
  have lower : ((site.row + 1 : Nat) : Rat) ≤ ((site.row + 1 + first.innerRows : Nat) : Rat) :=
    Nat.cast_le.mpr (Nat.le_add_right _ _)
  refine ⟨rfl, ?_, rfl, ?_, ?_, ?_, ?_⟩
  · change ((state.pass.records ++ [_]) ++ _)[state.pass.records.length]? = _
    rw [List.append_assoc, List.getElem?_append_right (le_refl _), Nat.sub_self]
    rfl
  · change max ((site.row + 1 : Nat) : Rat) _ + 1 =
      ((site.row + 1 + (1 + first.innerRows) : Nat) : Rat)
    rw [max_eq_right lower]
    push_cast
    ring
  · change max ((site.row + 1 : Nat) : Rat) _ ≤ max (max state.maxRow _) _
    exact max_le_max_right _ (le_max_right _ _)
  · exact le_widest _ _
  · exact widest_mono edge_le _

/-- A state behind all rails of a branch. -/
def pastRails (state : LayoutState Rat) (config : LayoutConfig Rat) (input : RungInput Rat)
    (site : RailSite) (position : Nat) (id : BranchId) (startX : Rat) (first : RailTree)
    (further : FurtherRails) (cursor : RailCursor Rat) : LayoutState Rat :=
  (state.pastFirst config input site position id startX first).furthered config input
    ((site.inside id startX).lowered first.rows) (position + 1 + first.drafts.length)
    (state.pastFirstContext config site id startX first) state.pass.contexts
    (site.openRecord config input position id startX) further cursor

/-- The records of a branch that is not closed yet, and of those inside it. -/
theorem records_pastRails :
    (state.pastRails config input site position id startX first further cursor).pass.records =
      state.pass.records ++
        { site.openRecord config input position id startX with childIds := further.ids } ::
          (first.records config input (site.inside id startX) (position + 1) none ++
            BranchPass.joined (further.blocks config input
              ((site.inside id startX).lowered first.rows)
              ((site.openRecord config input position id startX).openRailRecord config input)
              (position + 1 + first.drafts.length))) := by
  change ((state.pass.records ++ [site.openRecord config input position id startX]) ++ _).set
    state.pass.records.length _ ++ _ = _
  rw [List.append_assoc, List.singleton_append, set_append_length, List.append_assoc,
    List.cons_append]
  rfl

/-- What is known of a branch behind all of its rails. -/
structure PastContext (state : LayoutState Rat) (config : LayoutConfig Rat)
    (input : RungInput Rat) (site : RailSite) (position : Nat) (id : BranchId) (startX : Rat)
    (first : RailTree) (further : FurtherRails) (context : OpenContext Rat) : Prop where
  slot : context.slot = state.pass.records.length
  children : context.children = BranchPass.headPlaces
    (state.pass.records.length +
      ((first.records config input (site.inside id startX) (position + 1) none).length + 1))
    (further.blocks config input ((site.inside id startX).lowered first.rows)
      ((site.openRecord config input position id startX).openRailRecord config input)
      (position + 1 + first.drafts.length))
  maxRight : context.maxRight = branchReach config startX first further
  maxRow : context.maxRow = (site.lowestRow first further : Rat)

variable (config input site state) in
theorem exists_pastContext :
    ∃ context,
      (state.pastRails config input site position id startX first further cursor).pass.contexts =
        context :: state.pass.contexts ∧
      state.PastContext config input site position id startX first further context := by
  refine ⟨_, rfl, rfl, ?_, ?_, ?_⟩
  · change [] ++ BranchPass.headPlaces ((state.pass.records ++ [_]) ++ _).length _ = _
    rw [List.nil_append, List.append_assoc, List.length_append, List.singleton_append,
      List.length_cons]
  · change max (widest (startX + config.sizes.branchMarker.width) _)
      (further.reach config startX) = _
    rw [widest_eq_max_railReach (le_refl _), max_assoc]
    exact max_eq_right (marker_le_branchReach config startX first further)
  · change max ((site.row + 1 : Nat) : Rat) ((site.row + 1 + first.innerRows : Nat) : Rat) +
      (further.rows : Rat) = _
    rw [max_eq_right (Nat.cast_le.mpr (Nat.le_add_right _ _)), ← Nat.cast_add]
    rfl

theorem maxRow_pastRails :
    (state.pastRails config input site position id startX first further cursor).maxRow =
      max state.maxRow (site.lowestRow first further : Rat) := by
  have first_le : ((site.row + 1 : Nat) : Rat) ≤ ((site.row + 1 + first.innerRows : Nat) : Rat) :=
    Nat.cast_le.mpr (Nat.le_add_right _ _)
  have further_le : ((site.row + 1 + first.innerRows : Nat) : Rat) ≤
      ((site.row + 1 + first.innerRows + further.rows : Nat) : Rat) :=
    Nat.cast_le.mpr (Nat.le_add_right _ _)
  change max (max (max state.maxRow _) _) (max ((site.row + 1 : Nat) : Rat) _ + _) = _
  rw [max_eq_right first_le, ← Nat.cast_add, max_assoc, max_eq_right further_le, max_assoc,
    max_eq_right (first_le.trans further_le)]
  rfl

theorem rightEdge_pastRails
    (edge_le : startX + config.sizes.branchMarker.width ≤ state.rightEdge) :
    (state.pastRails config input site position id startX first further cursor).rightEdge =
      max state.rightEdge (branchReach config startX first further) := by
  change max (widest state.rightEdge _) _ = _
  rw [widest_eq_max_railReach edge_le, max_assoc]
  rfl

theorem placed_pastRails :
    (state.pastRails config input site position id startX first further cursor).placed =
      (site.placedBeforeEnd config input position id startX first further).reverse ++
        state.placed := by
  change _ ++ (_ ++ _ :: state.placed) = _
  rw [RailSite.placedBeforeEnd, List.reverse_cons, List.reverse_append, List.append_assoc,
    List.append_assoc]
  rfl

/-- The rails of a branch leave no trace in the bounds of what is around it. -/
theorem reached_left_pastRails (rules : config.KeepsRules)
    (edge_le : startX + config.sizes.branchMarker.width ≤ state.rightEdge)
    (own : List (Branch Rat)) :
    ((state.pastRails config input site position id startX first further cursor).left
        state.pass.contexts (state.pass.records ++ own)).reached
          (some (branchRight config startX first further)) (site.lowestRow first further) =
      (state.reached (some (branchRight config startX first further))
        (site.lowestRow first further)).recorded
        (site.placedBeforeEnd config input position id startX first further) own := by
  have left_eq : (state.pastRails config input site position id startX first further cursor).left
      state.pass.contexts (state.pass.records ++ own) =
        (state.recorded (site.placedBeforeEnd config input position id startX first further)
          own).bounded (max state.maxRow (site.lowestRow first further : Rat))
          (max state.rightEdge (branchReach config startX first further)) := by
    unfold left recorded bounded
    rw [placed_pastRails, maxRow_pastRails, rightEdge_pastRails _ _ _ _ _ _ edge_le]
    rfl
  have edgeNoted : max (max state.rightEdge (branchReach config startX first further))
      (branchRight config startX first further) =
        max state.rightEdge (branchRight config startX first further) := by
    rw [max_assoc, max_eq_right (rules.branchReach_le_branchRight startX first further)]
  have rowNoted : max (max state.maxRow (site.lowestRow first further : Rat))
      (site.lowestRow first further) = max state.maxRow (site.lowestRow first further : Rat) := by
    rw [max_assoc, max_self]
  refine (congrArg (reached · _ _) left_eq).trans ?_
  refine Eq.trans ?_ (reached_recorded _ _ _)
  exact reached_bounded rowNoted edgeNoted

/-- Closing a branch behind all of its rails completes its records. -/
theorem PastContext.setAll_eq {context : OpenContext Rat}
    (past : state.PastContext config input site position id startX first further context) :
    BranchPass.setAll
        ((state.pastRails config input site position id startX first further
          cursor).pass.records.set context.slot
            { site.openRecord config input position id startX with
              childIds := further.ids
              endPosition := .ofNat (position + 1 + first.drafts.length + further.drafts.length)
              endX := (closingOf config input context).endX
              endY := (closingOf config input context).endY })
        context.children
        (BranchPass.finishChildren
          (.ofNat (position + 1 + first.drafts.length + further.drafts.length))
          (closingOf config input context)
          ((state.pastRails config input site position id startX first further
            cursor).pass.childrenOf context)) =
      state.pass.records ++
        site.branchRecords config input position id startX first further := by
  have bottom : context.maxRow + 1 =
      ((site.row + 1 + first.rows + further.rows : Nat) : Rat) := by
    rw [past.maxRow, RailSite.lowestRow, RailTree.rows]
    push_cast
    ring
  have closing : closingOf config input context =
      ⟨branchRight config startX first further,
        input.rowY config ((site.row + 1 + first.rows + further.rows : Nat) : Rat) - 1⟩ := by
    rw [closingOf_eq bottom, past.maxRight]
    rfl
  have heads := BranchPass.filterMap_headPlaces
    (state.pass.records ++
      { site.openRecord config input position id startX with childIds := further.ids } ::
        first.records config input (site.inside id startX) (position + 1) none)
    (further.blocks config input ((site.inside id startX).lowered first.rows)
      ((site.openRecord config input position id startX).openRailRecord config input)
      (position + 1 + first.drafts.length))
  rw [List.length_append, List.length_cons, List.append_assoc, List.cons_append] at heads
  rw [closing, BranchPass.childrenOf, records_pastRails, past.children, heads, past.slot,
    set_append_length]
  exact setAll_closed
    (position + 1 + first.drafts.length) further state.pass.records
    (first.records config input (site.inside id startX) (position + 1) none)
    (site.openRecord config input position id startX)
    ((site.inside id startX).lowered first.rows)
    ⟨branchRight config startX first further, input.rowY config
      ((site.row + 1 + first.rows + further.rows : Nat) : Rat) - 1⟩ rfl
    (site.branchRecord config input position id startX first further) rfl

/-- A state behind a branch that stands at `startX` on its current rail. -/
def pastBranch (state : LayoutState Rat) (config : LayoutConfig Rat) (input : RungInput Rat)
    (site : RailSite) (position : Nat) (id : BranchId) (startX : Rat) (first : RailTree)
    (further : FurtherRails) : LayoutState Rat :=
  (state.reached (some (branchRight config startX first further))
      (site.lowestRow first further)).recorded
    (site.placedBeforeEnd config input position id startX first further ++
      [site.put config input (position + 1 + first.drafts.length + further.drafts.length)
        (.branchEnd id) (config.behind (branchReach config startX first further))])
    (site.branchRecords config input position id startX first further)

variable (input) in
/-- The end marker of a branch completes its records, and the rail goes on behind it. -/
theorem step_pastRails (rules : config.KeepsRules)
    (stands : state.StandsOn site (some (startX + config.sizes.branchMarker.width))) :
    (state.pastRails config input site position id startX first further cursor).step config input
        (site.element (position + 1 + first.drafts.length + further.drafts.length)
          (.branchEnd id)) =
      .ok (state.pastBranch config input site position id startX first further) := by
  obtain ⟨context, opened, past⟩ :=
    exists_pastContext config input state site position id startX first further cursor
  have found : (state.pastRails config input site position id startX first further
      cursor).pass.records[context.slot]? =
        some { site.openRecord config input position id startX with childIds := further.ids } := by
    rw [records_pastRails, past.slot, List.getElem?_append_right (le_refl _), Nat.sub_self]
    rfl
  have row_le : context.maxRow ≤
      (state.pastRails config input site position id startX first further cursor).maxRow := by
    rw [past.maxRow, maxRow_pastRails]
    exact le_max_right _ _
  have endX : (closingOf config input context).endX = branchRight config startX first further := by
    unfold closingOf branchRight
    rw [past.maxRight]
  refine (step_branchEnd opened found row_le stands.rail _).trans
    (congrArg Except.ok ?_)
  refine (congrArg (fun records => ((left _ _ records).reached _ _).recorded _ _)
    (past.setAll_eq _ _ _ _ _ cursor)).trans ?_
  rw [endX, past.maxRow, past.maxRight,
    reached_left_pastRails _ _ _ _ _ _ rules (stands.last_le _ rfl), recorded_recorded,
    List.append_nil]
  rfl

end PastRails

end LayoutState

end LadderDiagram
