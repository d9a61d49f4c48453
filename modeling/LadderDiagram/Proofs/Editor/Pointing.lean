import LadderDiagram.Proofs.Drawing.Insertion
import LadderDiagram.Proofs.Drawing.Locate
import LadderDiagram.Proofs.Editor.Failure
import LadderDiagram.Proofs.Sequence.Around

/-!
# Pointing at the drawing of an editor

Whatever an editor has been called to do, a pixel of an element leads back to it: the
element under the pixel is this one, and the place to insert at is on its rail.
-/

namespace LadderDiagram
namespace Editor

theorem Reachable.config_eq {α : Type} [Scalar α] [ExactScalar α] {config : LayoutConfig α}
    {drawing : Drawing α} (reachable : Reachable config drawing) : drawing.config = config := by
  induction reachable with
  | new => rfl
  | called call before same => exact (steps_on before.laidOut call).config_eq.trans same

variable {config : LayoutConfig Rat} {drawing : Drawing Rat}

/--
At every pixel of an element of a rung, the element is the one that is found, and no other
element of the drawing is there.  Unless it is a next marker, the rail that is found is the
one on which the element stands, as deep as there are branches around the element.
-/
theorem hit_of_contains (valid : config.isValid = true) (reachable : Reachable config drawing)
    {index place : Nat} {rung : Rung} {layout : LayoutResult Rat} {placed : LayoutElement Rat}
    (stands : drawing.routine.rungs[index]? = some rung)
    (cached : drawing.layouts[index]? = some layout)
    (isPlaced : layout.elements[place]? = some placed) (x y : Int)
    (inside : placed.contains (x : Rat) (y : Rat) = true) :
    drawing.elementAt (x : Rat) (y : Rat) = some placed ∧
    (∀ (otherIndex otherPlace : Nat) (otherLayout : LayoutResult Rat) (other : LayoutElement Rat),
      drawing.layouts[otherIndex]? = some otherLayout →
      otherLayout.elements[otherPlace]? = some other →
      other.contains (x : Rat) (y : Rat) = true →
        otherIndex = index ∧ otherPlace = place) ∧
    (placed.kind ≠ .branchNext →
      drawing.locate (x : Rat) (y : Rat) = some
        ⟨.ofNat index, .ofNat (branchesAround (drafts rung.elements) place).length,
          placed.railId⟩) := by
  have laid := reachable.laidOut
  have rules : drawing.config.KeepsRules :=
    LayoutConfig.keepsRules_of_isValid (reachable.config_eq ▸ valid)
  obtain ⟨own, draws⟩ := laid.draws index rung stands not_false
  obtain rfl := Option.some.inj (draws.cached.symm.trans cached)
  have member := List.mem_of_getElem? isPlaced
  refine ⟨draws.elementAt_eq laid rules isPlaced inside, ?_, fun stays => ?_⟩
  · intro otherIndex otherPlace otherLayout other otherCached otherIsPlaced otherInside
    obtain ⟨bounded, _⟩ := List.getElem?_eq_some_iff.mp otherCached
    obtain ⟨another, found, otherDraws⟩ := laid.exists_draws (laid.length_layouts ▸ bounded)
    obtain rfl := Option.some.inj (otherDraws.cached.symm.trans otherCached)
    obtain rfl := laid.index_eq_of_band rules draws otherDraws
      (draws.band_of_contains laid rules member inside)
      (otherDraws.band_of_contains laid rules (List.mem_of_getElem? otherIsPlaced) otherInside)
    obtain rfl := Option.some.inj (otherDraws.cached.symm.trans draws.cached)
    exact ⟨rfl, draws.place_eq_of_contains laid rules isPlaced inside otherIsPlaced otherInside⟩
  · have sound := laid.sound.rungAt stands
    have annotates : rung.elements[place]? = some placed.element := by
      obtain ⟨tree, annotated, rfl⟩ := draws.exists_tree laid rules
      have same : (tree.layout drawing.config (Drawing.rungInput index (drawing.bandStart index)
          rung)).elements.map LayoutElement.element = rung.elements :=
        (tree.map_element_placed _ _ (.main drawing.config) 0 none).trans annotated.symm
      rw [← same, List.getElem?_map, isPlaced]
      rfl
    rw [← branchLevel_of_annotate sound.annotated annotates]
    exact draws.locate_eq laid rules member inside (IsWhole.intCast y) stays

/-- A pixel of an instruction on the second rail of a branch. -/
theorem hit_of_contains_of_sample :
    ∃ layout placed, sampleDrawing.layouts[0]? = some layout ∧
      layout.elements[3]? = some placed ∧
      sampleDrawing.elementAt ((90 : Int) : Rat) ((200 : Int) : Rat) = some placed ∧
      sampleDrawing.locate ((90 : Int) : Rat) ((200 : Int) : Rat) =
        some ⟨.ofNat 0, .ofNat 1, some (.ofNat 1)⟩ := by
  have around : sampleDrawing.routine.rungs[0]?.map (fun rung =>
      (branchesAround (drafts rung.elements) 3).length) = some 1 := by
    decide +kernel
  have hit : (sampleDrawing.layouts[0]?.bind (·.elements[3]?)).map (fun placed =>
      (placed.contains ((90 : Int) : Rat) ((200 : Int) : Rat), placed.kind, placed.railId)) =
        some (true, .instruction, some (.ofNat 1)) := by
    decide +kernel
  obtain ⟨rung, stands, depth⟩ := Option.map_eq_some_iff.mp around
  obtain ⟨placed, isStanding, values⟩ := Option.map_eq_some_iff.mp hit
  obtain ⟨layout, cached, isPlaced⟩ := Option.bind_eq_some_iff.mp isStanding
  simp only [Prod.mk.injEq] at values
  obtain ⟨inside, kind, railId⟩ := values
  have stays : placed.kind ≠ .branchNext := by
    rw [kind]
    decide
  obtain ⟨found, _, located⟩ := hit_of_contains (by decide +kernel)
    (.called (.load Routine.sampleSource) .new) stands cached isPlaced 90 200 inside
  have rail := located stays
  rw [depth, railId] at rail
  exact ⟨layout, placed, cached, isPlaced, found, rail⟩

end Editor

/-!
### The gaps of a rail, from left to right

Whatever an editor has been called to do, a gap of a rail is found at every place.  If the
measures are valid, the place splits the rail of its drawing there: what stands on the rail with
its centre not right of the place is before the gap that is found, and the rest is behind it.  So
the gaps of a rail are found one after the other.
-/

/--
A rail of a sequence with the number of branches around it.  Some gap lies on it, if only the
one behind the marker that opens it.
-/
def IsRail (elements : List Element) (rail : Option BranchId) (level : Nat) : Prop :=
  ∃ gap ≤ elements.length, railAtGap elements gap = rail ∧
    ∃ around, branchesAfter? [] ((drafts elements).take gap) = some around ∧
      around.length = level

/--
Every instruction and every branch on a rail is before a gap if its centre is not right of a
place, and behind the gap otherwise.
-/
def LayoutResult.SplitsAt (layout : LayoutResult Rat) (rail : Option BranchId) (x : Rat)
    (gap : Nat) : Prop :=
  ∀ center start finish, layout.IsBlock rail center start finish →
    (center ≤ x → finish ≤ gap) ∧ (x < center → gap ≤ start)

namespace Drawing

variable {drawing : Drawing Rat} {index : Nat} {rung : Rung} {layout : LayoutResult Rat}

/-- A rail of a rung is its main rail or one that a marker opens, and it has a gap at its level. -/
theorem Draws.exists_gap_of_isRail (laid : drawing.LaidOut)
    (draws : drawing.Draws index rung layout) {rail : Option BranchId} {level : Nat}
    (isRail : IsRail rung.elements rail level) :
    (rail = none ∨ Opens (drafts rung.elements) rail) ∧ ∃ gap ≤ rung.elements.length,
      railAtGap rung.elements gap = rail ∧ levelAtGap rung.elements gap = .ofNat level := by
  obtain ⟨gap, within, onRail, around, opened, rfl⟩ := isRail
  have annotated := (laid.sound.rungAt draws.stands).annotated
  have inSource : gap ≤ (drafts rung.elements).length := by
    rw [drafts, List.length_map]
    exact within
  obtain ⟨own, sameOpened, levelAt⟩ := levelAtGap_of_annotate annotated inSource
  obtain rfl := Option.some.inj (sameOpened.symm.trans opened)
  exact ⟨onRail ▸ railAtGap_of_annotate annotated inSource, gap, within, onRail, levelAt⟩

/-- Every rail of a rung is a row on the drawing. -/
theorem Draws.exists_hasRow (laid : drawing.LaidOut) (rules : drawing.config.KeepsRules)
    (wide : ∀ draft, 1 ≤ (drawing.config.draftSize draft).width)
    (draws : drawing.Draws index rung layout) {rail : Option BranchId} {level : Nat}
    (isRail : IsRail rung.elements rail level) :
    ∃ start blocks, layout.HasRow rung.elements rail level start blocks := by
  obtain ⟨isOpened, gap, within, onRail, levelAt⟩ := draws.exists_gap_of_isRail laid isRail
  have nested := (laid.sound.rungAt draws.stands).wellNested
  obtain ⟨tree, annotated, rfl⟩ := draws.exists_tree laid rules
  rw [annotated, tree.drafts_elements] at isOpened nested
  obtain ⟨own, start, blocks, hasRow⟩ := tree.exists_hasRow rules wide nested isOpened
  rw [← annotated] at hasRow
  have sameLevel := (hasRow.isGap gap within onRail).2.symm.trans levelAt
  rw [Address.ofNat_inj] at sameLevel
  exact ⟨start, blocks, sameLevel ▸ hasRow⟩

/-- On every rail of a rung a gap of this rail is found at every place, with any measures. -/
theorem Draws.exists_gapAt (laid : drawing.LaidOut) (draws : drawing.Draws index rung layout)
    {rail : Option BranchId} {level : Nat} (isRail : IsRail rung.elements rail level) :
    ∃ gapAt : Rat → Nat, ∀ x,
      drawing.findInsertionPosition x (.ofNat index) (.ofNat level) rail =
          .ok (.ofNat (gapAt x)) ∧
        gapAt x ≤ rung.elements.length ∧ railAtGap rung.elements (gapAt x) = rail := by
  obtain ⟨isOpened, gap, within, onRail, levelAt⟩ := draws.exists_gap_of_isRail laid isRail
  obtain ⟨own, _, _, levels, finds⟩ := draws.exists_gap laid isOpened
  have sameLevel := (levels gap within onRail).symm.trans levelAt
  rw [sameLevel] at finds
  choose gapAt inRung liesOn found using finds
  exact ⟨gapAt, fun x => ⟨found x, inRung x, liesOn x⟩⟩

end Drawing

namespace Editor

variable {config : LayoutConfig Rat} {drawing : Drawing Rat}

/--
At every place `x` a gap of the rung is found that is on the rail for which it is asked.  Under
a valid configuration it splits the rail at `x`: every instruction and every branch on the rail
is before the gap if its centre is not right of `x`, and behind it otherwise.  So the gaps do
not go back as the place goes to the right, and each gap of the rail is found at some whole
number.
-/
theorem splits_rail (reachable : Reachable config drawing) {index : Nat} {rung : Rung}
    {layout : LayoutResult Rat} (stands : drawing.routine.rungs[index]? = some rung)
    (cached : drawing.layouts[index]? = some layout) {rail : Option BranchId} {level : Nat}
    (isRail : IsRail rung.elements rail level) :
    ∃ gapAt : Rat → Nat,
      (∀ x : Rat,
        drawing.findInsertionPosition x (.ofNat index) (.ofNat level) rail =
            .ok (.ofNat (gapAt x)) ∧
          gapAt x ≤ rung.elements.length ∧ railAtGap rung.elements (gapAt x) = rail) ∧
      (config.isValid = true →
        (∀ x : Rat, layout.SplitsAt rail x (gapAt x)) ∧ Monotone gapAt ∧
        ∀ gap ≤ rung.elements.length, railAtGap rung.elements gap = rail →
          ∃ value : Int, gapAt value = gap) := by
  have laid := reachable.laidOut
  obtain ⟨own, draws⟩ := laid.draws index rung stands not_false
  obtain rfl := Option.some.inj (draws.cached.symm.trans cached)
  obtain ⟨gapAt, finds⟩ := draws.exists_gapAt laid isRail
  refine ⟨gapAt, finds, fun valid => ?_⟩
  have wide : ∀ draft, 1 ≤ (drawing.config.draftSize draft).width :=
    LayoutConfig.one_le_width (reachable.config_eq ▸ valid)
  have rules : drawing.config.KeepsRules :=
    LayoutConfig.keepsRules_of_isValid (reachable.config_eq ▸ valid)
  obtain ⟨start, blocks, hasRow⟩ := draws.exists_hasRow laid rules wide isRail
  have splits (x : Rat) : gapAt x = splitGap x start blocks := by
    have found := draws.findInsertionPosition_eq_splitGap laid hasRow x
    exact Address.ofNat_inj.mp (Except.ok.inj ((finds x).1.symm.trans found))
  refine ⟨fun x center first finish isBlock => ?_, fun x y le => ?_, fun gap within onRail => ?_⟩
  · have member := hasRow.isBlock center first finish isBlock
    rw [splits]
    exact ⟨hasRow.row.finish_le_splitGap member, hasRow.row.splitGap_le_start member⟩
  · rw [splits, splits]
    exact hasRow.row.splitGap_mono le
  · obtain ⟨isGap, _⟩ := hasRow.isGap gap within onRail
    obtain ⟨low, left⟩ := hasRow.row.exists_left
    obtain ⟨value, _, found⟩ := hasRow.row.exists_splitGap_eq isGap left
    exact ⟨value, (splits value).trans found⟩

/-- The second rail of a branch, with the gaps before and behind its instruction. -/
theorem splits_rail_of_sample :
    ∃ gapAt : Rat → Nat,
      (∀ x : Rat, sampleDrawing.findInsertionPosition x (.ofNat 0) (.ofNat 1)
        (some (.ofNat 1)) = .ok (.ofNat (gapAt x))) ∧
      Monotone gapAt ∧ (∃ value : Int, gapAt value = 3) ∧ ∃ value : Int, gapAt value = 4 := by
  have gaps : sampleDrawing.routine.rungs[0]?.map (fun rung => (rung.elements.length,
      railAtGap rung.elements 3, railAtGap rung.elements 4,
      branchesAfter? [] ((drafts rung.elements).take 3))) =
        some (6, some (.ofNat 1), some (.ofNat 1), some [.ofNat 0]) := by
    decide +kernel
  have laidOut : (sampleDrawing.layouts[0]?).isSome = true := by decide +kernel
  obtain ⟨rung, stands, values⟩ := Option.map_eq_some_iff.mp gaps
  obtain ⟨layout, cached⟩ := Option.isSome_iff_exists.mp laidOut
  simp only [Prod.mk.injEq] at values
  obtain ⟨length, third, fourth, around⟩ := values
  have isRail : IsRail rung.elements (some (.ofNat 1)) 1 :=
    ⟨3, by omega, third, [.ofNat 0], around, rfl⟩
  obtain ⟨gapAt, finds, splits⟩ :=
    splits_rail (.called (.load Routine.sampleSource) .new) stands cached isRail
  obtain ⟨_, monotone, covers⟩ := splits (by decide +kernel)
  exact ⟨gapAt, fun x => (finds x).1, monotone, covers 3 (by omega) third,
    covers 4 (by omega) fourth⟩

/-- An editor that has read three instructions and draws them from right to left. -/
def recedingDrawing : Drawing Rat :=
  (Call.on (.blank .receding .empty)
    (.load ⟨none, [⟨some "XIC(A)XIC(B)OTE(C);", none⟩]⟩)).2

/--
Where elements recede, all three centres are left of the place 100, and yet two of the
instructions are behind the gap that is found there.
-/
theorem not_splits_recedingRail :
    Reachable .receding recedingDrawing ∧ ∃ rung layout,
      recedingDrawing.routine.rungs[0]? = some rung ∧
      recedingDrawing.layouts[0]? = some layout ∧ IsRail rung.elements none 0 ∧
      recedingDrawing.findInsertionPosition 100 (.ofNat 0) (.ofNat 0) none = .ok (.ofNat 1) ∧
      ¬ layout.SplitsAt none 100 1 := by
  have drawn : (recedingDrawing.layouts[0]?.bind (·.elements[1]?)).map (fun placed =>
      (placed.element.draft, placed.railId, placed.x, placed.width)) =
        some (.instruction (Instruction.make "XIC" ["B"]), none, (-90 : Rat), (40 : Rat)) := by
    decide +kernel
  have gap : recedingDrawing.routine.rungs[0]?.map (fun rung => railAtGap rung.elements 0) =
      some none := by
    decide +kernel
  have found : (recedingDrawing.findInsertionPosition 100 (.ofNat 0) (.ofNat 0)
      none).toOption = some (.ofNat 1) := by
    decide +kernel
  obtain ⟨rung, stands, onRail⟩ := Option.map_eq_some_iff.mp gap
  obtain ⟨placed, isStanding, values⟩ := Option.map_eq_some_iff.mp drawn
  obtain ⟨layout, cached, isPlaced⟩ := Option.bind_eq_some_iff.mp isStanding
  simp only [Prod.mk.injEq] at values
  obtain ⟨content, railId, left, width⟩ := values
  refine ⟨.called _ .new, rung, layout, stands, cached,
    ⟨0, Nat.zero_le _, onRail, [], rfl, rfl⟩, toOption_eq_some_iff.mp found, fun splits => ?_⟩
  obtain ⟨before, _⟩ := splits _ _ _ (.instruction isPlaced railId content)
  have notRight : placed.x + placed.width / 2 ≤ 100 := by
    rw [left, width]
    norm_num
  exact absurd (before notRight) (by decide)

end Editor

end LadderDiagram
