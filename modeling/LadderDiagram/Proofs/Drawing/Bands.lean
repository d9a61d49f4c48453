import LadderDiagram.Proofs.Drawing.Relay
import LadderDiagram.Proofs.Layout.Footprint
import LadderDiagram.Proofs.Layout.Recursion

/-!
# Bands of a drawing in exact numbers

Under a valid configuration the rungs of a drawing that is laid out are drawn one below the
other, each as the recursion over its tree lays it out, and everything stands at a whole
height.  So a height is in one band at most, and the elements of a rung are in its band.
-/

namespace LadderDiagram

/-! ### Whole numbers -/

namespace IsWhole

variable {first second : Rat}

theorem natCast (value : Nat) : IsWhole (value : Rat) := ⟨value, rfl⟩

theorem intCast (value : Int) : IsWhole (value : Rat) := ⟨value, rfl⟩

theorem add (isWhole : IsWhole first) (other : IsWhole second) : IsWhole (first + second) := by
  obtain ⟨own, rfl⟩ := isWhole
  obtain ⟨own', rfl⟩ := other
  exact ⟨own + own', (Int.cast_add own own').symm⟩

theorem mul (isWhole : IsWhole first) (other : IsWhole second) : IsWhole (first * second) := by
  obtain ⟨own, rfl⟩ := isWhole
  obtain ⟨own', rfl⟩ := other
  exact ⟨own * own', (Int.cast_mul own own').symm⟩

/-- Nothing whole is within the last unit before a whole number. -/
theorem le_sub_one (isWhole : IsWhole first) (other : IsWhole second) (lt : first < second) :
    first ≤ second - 1 := by
  obtain ⟨own, rfl⟩ := isWhole
  obtain ⟨own', rfl⟩ := other
  have below : own ≤ own' - 1 := Int.le_sub_one_of_lt (Int.cast_lt.mp lt)
  exact_mod_cast below

end IsWhole

/-! ### Layouts of trees -/

section Layout

variable {config : LayoutConfig Rat} (rules : config.KeepsRules) {input : RungInput Rat}

include rules

theorem RungInput.isWhole_rowY (input : RungInput Rat) (y : IsWhole input.y)
    (commentLines : IsWhole input.commentLines) (row : Nat) :
    IsWhole (input.rowY config (row : Rat)) :=
  ((y.add (rules.whole .rungPadding)).add
    (commentLines.mul (rules.whole .commentLineHeight))).add
    ((IsWhole.natCast row).mul (rules.whole .branchSpacing))

theorem RailTree.isWhole_height (commentLines : IsWhole input.commentLines) (tree : RailTree) :
    IsWhole (tree.layout config input).height :=
  (((IsWhole.natCast 2).mul (rules.whole .rungPadding)).add
    (commentLines.mul (rules.whole .commentLineHeight))).add
    ((IsWhole.natCast tree.rows).mul (rules.whole .branchSpacing))

theorem RailTree.height_nonneg (commentLines : 0 ≤ input.commentLines) (tree : RailTree) :
    0 ≤ (tree.layout config input).height := by
  have padding : 0 ≤ config.rungPadding := rules.nonneg .rungPadding
  have comment := mul_nonneg commentLines (rules.nonneg .commentLineHeight)
  have rows := mul_nonneg (Nat.cast_nonneg (α := Rat) tree.rows) rules.branchSpacing.le
  exact add_nonneg (add_nonneg (mul_nonneg zero_le_two padding) comment) rows

/-- The points of the elements of a rung are in its band. -/
theorem RailTree.band_of_contains (commentLines : 0 ≤ input.commentLines) {tree : RailTree}
    {placed : LayoutElement Rat} (member : placed ∈ (tree.layout config input).elements)
    {x y : Rat} (inside : placed.contains x y = true) :
    input.y ≤ y ∧ y < input.y + (tree.layout config input).height := by
  obtain ⟨edge, ends⟩ := tree.exists_endsBy config config.leftRailX none
  have liesIn := tree.placed_liesIn rules (.main config) 0 ends member
  obtain ⟨_, top, bottom⟩ := LayoutElement.contains_iff.mp inside
  have top_le := (input.le_rowY rules commentLines 0).trans liesIn.top_le
  have bottom_le := liesIn.bottom_le.trans (input.rowY_le_bottom rules tree (Nat.zero_add _).le)
  exact ⟨top_le.trans top, bottom.trans_le bottom_le⟩

end Layout

namespace Drawing

variable {drawing : Drawing Rat} (laid : drawing.LaidOut) (rules : drawing.config.KeepsRules)
  {index : Nat} {rung : Rung} {layout : LayoutResult Rat}

include laid rules

/-- A rung is drawn as the recursion over its tree lays it out. -/
theorem Draws.exists_tree (draws : drawing.Draws index rung layout) :
    ∃ tree : RailTree, rung.elements = tree.elements .main 0 ∧
      layout = tree.layout drawing.config (rungInput index (drawing.bandStart index) rung) := by
  have sound := laid.sound.rungAt draws.stands
  obtain ⟨tree, same⟩ := exists_railTree sound.wellNested
  have annotated : rung.elements = tree.elements .main 0 :=
    elements_of_annotate (same ▸ sound.annotated)
  refine ⟨tree, annotated, ?_⟩
  have lays : layoutRung drawing.config .empty
      (rungInput index (drawing.bandStart index) rung) = _ := layoutRung_eq rules annotated .empty
  exact congrArg Prod.fst (Except.ok.inj ((draws.isOf.laidOut .empty).symm.trans lays))

theorem LaidOut.isWhole_bandStart (within : index ≤ drawing.routine.size) :
    IsWhole (drawing.bandStart index) := by
  induction index with
  | zero => exact rules.whole .routineOriginY
  | succ before ih =>
      obtain ⟨rung, layout, draws⟩ := laid.exists_draws within
      obtain ⟨tree, _, rfl⟩ := draws.exists_tree laid rules
      rw [draws.bandStart_succ]
      exact ((ih (Nat.le_of_succ_le within)).add
        (tree.isWhole_height rules (IsWhole.natCast rung.commentLines))).add
        (rules.whole .rungGap)

/-- A rung ends before each of the rungs below it begins. -/
theorem Draws.end_le_bandStart (draws : drawing.Draws index rung layout) {other : Nat}
    (below : index < other) (within : other ≤ drawing.routine.size) :
    drawing.bandStart index + layout.height ≤ drawing.bandStart other := by
  have gap : 0 ≤ drawing.config.rungGap := rules.nonneg .rungGap
  induction other with
  | zero => exact absurd below (Nat.not_lt_zero index)
  | succ before ih =>
      obtain ⟨own, ownLayout, ownDraws⟩ := laid.exists_draws within
      rw [ownDraws.bandStart_succ]
      rcases Nat.lt_succ_iff_lt_or_eq.mp below with earlier | rfl
      · have upper := ih earlier (Nat.le_of_succ_le within)
        obtain ⟨tree, _, rfl⟩ := ownDraws.exists_tree laid rules
        have height : 0 ≤ (tree.layout drawing.config
            (rungInput before (drawing.bandStart before) own)).height :=
          tree.height_nonneg rules (Nat.cast_nonneg own.commentLines)
        linarith
      · obtain rfl := Option.some.inj (draws.cached.symm.trans ownDraws.cached)
        linarith

/-- The layout of a rung begins where its band does. -/
theorem Draws.y_eq (draws : drawing.Draws index rung layout) :
    layout.y = drawing.bandStart index ∧ layout.rungNumber = .ofNat index := by
  obtain ⟨tree, _, rfl⟩ := draws.exists_tree laid rules
  exact ⟨rfl, rfl⟩

/-- A height in the band of a rung is in no other band. -/
theorem LaidOut.index_eq_of_band (draws : drawing.Draws index rung layout) {other : Nat}
    {another : Rung} {below : LayoutResult Rat} (otherDraws : drawing.Draws other another below)
    {y : Rat} (band : layout.y ≤ y ∧ y < layout.y + layout.height)
    (otherBand : below.y ≤ y ∧ y < below.y + below.height) : other = index := by
  rw [(draws.y_eq laid rules).1] at band
  rw [(otherDraws.y_eq laid rules).1] at otherBand
  have bounded := (List.getElem?_eq_some_iff.mp draws.stands).1
  have otherBounded := (List.getElem?_eq_some_iff.mp otherDraws.stands).1
  rcases Nat.lt_trichotomy other index with before | same | behind
  · have apart := otherDraws.end_le_bandStart laid rules before bounded.le
    linarith
  · exact same
  · have apart := draws.end_le_bandStart laid rules behind otherBounded.le
    linarith

end Drawing
end LadderDiagram
