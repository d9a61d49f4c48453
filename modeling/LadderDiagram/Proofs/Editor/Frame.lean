import LadderDiagram.Proofs.Editor.Pointing
import LadderDiagram.Proofs.Layout.Frame

/-!
# The frame of a drawing

The bands of the rungs follow one another at the same distance, and the extent of a drawing reaches
from the corner of the first one to the gap behind the last one, and to the right of every power
rail.  So all that is drawn of a rung is in the frame of the drawing.
-/

namespace LadderDiagram
namespace Drawing

/-- The whole of a drawing. -/
def frame (drawing : Drawing Rat) : Frame :=
  ⟨0, drawing.extent.width, 0, drawing.extent.height⟩

/-- A measure that grows item by item is not below any of the items. -/
theorem le_foldl_max {Item : Type} (measure : Item → Rat) {items : List Item} {start bound : Rat}
    (le : bound ≤ start ∨ ∃ item ∈ items, bound ≤ measure item) :
    bound ≤ items.foldl (fun value item => Scalar.max value (measure item)) start := by
  induction items generalizing start with
  | nil => simpa using le
  | cons first rest ih =>
      rw [List.foldl_cons]
      apply ih
      rw [Scalar.max_rat, le_max_iff, or_assoc]
      simpa only [List.mem_cons, exists_eq_or_imp] using le

variable {drawing : Drawing Rat} (laid : drawing.LaidOut) (rules : drawing.config.KeepsRules)
  {index : Nat} {rung : Rung} {layout : LayoutResult Rat}

include laid rules

/-- A drawing ends where another rung would begin. -/
theorem LaidOut.extent_height_eq :
    drawing.extent.height = drawing.bandStart drawing.routine.size := by
  have counted := laid.length_layouts
  unfold extent
  rw [List.getLast?_eq_getElem?, counted]
  cases isSize : drawing.routine.size with
  | zero =>
      rw [isSize, List.length_eq_zero_iff] at counted
      rw [counted]
      rfl
  | succ before =>
      have bounded : before < drawing.routine.size := isSize.symm ▸ Nat.lt_succ_self before
      obtain ⟨rung, layout, draws⟩ := laid.exists_draws bounded
      rw [Nat.add_sub_cancel, draws.cached, draws.bandStart_succ, ← (draws.y_eq laid rules).1]

theorem LaidOut.bandStart_nonneg (within : index ≤ drawing.routine.size) :
    0 ≤ drawing.bandStart index := by
  have origin : 0 ≤ drawing.bandStart 0 := rules.nonneg .routineOriginY
  rcases Nat.eq_zero_or_pos index with rfl | later
  · exact origin
  · obtain ⟨rung, layout, draws⟩ := laid.exists_draws (later.trans_le within)
    have ends := draws.end_le_bandStart laid rules later within
    obtain ⟨tree, _, rfl⟩ := draws.exists_tree laid rules
    have height : 0 ≤ (tree.layout drawing.config
        (rungInput 0 (drawing.bandStart 0) rung)).height :=
      tree.height_nonneg rules (Nat.cast_nonneg rung.commentLines)
    linarith

/-- The frame of a rung is a part of the frame of the drawing. -/
theorem Draws.frame_within (draws : drawing.Draws index rung layout) :
    (layout.frame drawing.config).Within drawing.frame := by
  have bounded := (List.getElem?_eq_some_iff.mp draws.stands).1
  have start := (draws.y_eq laid rules).1
  have leftRail : 0 ≤ drawing.config.leftRailX := rules.nonneg .leftRailX
  have ends := draws.end_le_bandStart laid rules bounded (le_refl _)
  refine ⟨leftRail, ?_, ?_, ?_⟩
  · refine le_trans ?_ (le_add_of_nonneg_right leftRail)
    exact le_foldl_max LayoutResult.rightRailX
      (.inr ⟨layout, List.mem_of_getElem? draws.cached, le_refl _⟩)
  · change 0 ≤ layout.y
    rw [start]
    exact laid.bandStart_nonneg rules bounded.le
  · change layout.y + layout.height ≤ drawing.extent.height
    rw [laid.extent_height_eq rules, start]
    exact ends

/-- A rung is drawn in its frame. -/
theorem Draws.isFramed (draws : drawing.Draws index rung layout) :
    layout.IsFramed drawing.config (layout.itemFrame drawing.config)
      (layout.frame drawing.config) := by
  have nested := (laid.sound.rungAt draws.stands).wellNested
  obtain ⟨tree, annotated, rfl⟩ := draws.exists_tree laid rules
  rw [annotated, tree.drafts_elements] at nested
  exact RailTree.isFramed rules (Nat.cast_nonneg rung.commentLines) nested.distinct

end Drawing

namespace Editor

variable {config : LayoutConfig Rat} {drawing : Drawing Rat}

/--
Whatever an editor has been called to do, the bands of its rungs follow one another with the same
gap between them.  All that is drawn of a rung is in its band and between its power rails, its
elements and its branches at some distance from these rails, and within the extent of the drawing.
-/
theorem drawn_in_frame (valid : config.isValid = true) (reachable : Reachable config drawing)
    {index : Nat} {layout : LayoutResult Rat} (cached : drawing.layouts[index]? = some layout) :
    drawing.bands[index]? = some (some ⟨layout.y, layout.height⟩) ∧
    (∀ next, drawing.layouts[index + 1]? = some next →
      next.y = layout.y + layout.height + config.rungGap) ∧
    (∀ (other : Nat) (below : LayoutResult Rat), index < other →
      drawing.layouts[other]? = some below → layout.y + layout.height ≤ below.y) ∧
    (layout.frame config).Within drawing.frame ∧
    layout.IsFramed config (layout.itemFrame config) (layout.frame config) ∧
    layout.IsFramed config drawing.frame drawing.frame := by
  obtain rfl := reachable.config_eq
  have laid := reachable.laidOut
  have rules := LayoutConfig.keepsRules_of_isValid valid
  obtain ⟨rung, draws⟩ := laid.exists_draws_of_cached cached
  have start := (draws.y_eq laid rules).1
  have within := draws.frame_within laid rules
  have framed := draws.isFramed laid rules
  refine ⟨start ▸ draws.band, fun next isNext => ?_, fun other below later isBelow => ?_, within,
    framed, framed.mono ((itemFrame_within rules layout).trans within) within⟩
  · obtain ⟨_, nextDraws⟩ := laid.exists_draws_of_cached isNext
    rw [(nextDraws.y_eq laid rules).1, draws.bandStart_succ, start]
  · obtain ⟨_, belowDraws⟩ := laid.exists_draws_of_cached isBelow
    have bounded := (List.getElem?_eq_some_iff.mp belowDraws.stands).1
    rw [(belowDraws.y_eq laid rules).1, start]
    exact draws.end_le_bandStart laid rules later bounded.le

/-- Two rungs, the first of which has a branch with two rails. -/
theorem drawn_in_frame_of_sample :
    ∃ upper lower, sampleDrawing.layouts[0]? = some upper ∧
      sampleDrawing.layouts[1]? = some lower ∧ upper.height = 200 ∧ lower.y = 270 ∧
      lower.y = upper.y + upper.height + (LayoutConfig.standard : LayoutConfig Rat).rungGap ∧
      upper.IsFramed .standard sampleDrawing.frame sampleDrawing.frame := by
  have first : sampleDrawing.layouts[0]?.map LayoutResult.height = some 200 := by decide +kernel
  have second : sampleDrawing.layouts[1]?.map LayoutResult.y = some 270 := by decide +kernel
  obtain ⟨upper, cached, height⟩ := Option.map_eq_some_iff.mp first
  obtain ⟨lower, isNext, y⟩ := Option.map_eq_some_iff.mp second
  obtain ⟨_, follows, _, _, _, framed⟩ := drawn_in_frame (by decide +kernel)
    (.called (.load Routine.sampleSource) .new) cached
  exact ⟨upper, lower, cached, isNext, height, y, follows lower isNext, framed⟩

end Editor
end LadderDiagram
