import LadderDiagram.Proofs.Drawing.Commuting
import LadderDiagram.Proofs.Layout.Comparison
import Mathlib.Algebra.Order.Ring.Rat
import Mathlib.Tactic.Linarith
import Mathlib.Tactic.Ring

/-!
# Rungs that slide

An edit of one rung leaves the rungs above it as they are drawn, and those below it slide: each
is drawn as before, but lower by as much as the edited rung has become higher.  For a rung is
laid out from the height at which it begins, and this height enters into the heights on it by
addition alone.  The rungs below begin under one another, so they all slide by the same amount,
and so do the records of their branches in the arena.
-/

namespace LadderDiagram

/-! ### Layouts at another height -/

/-- Numbers and positions of a layout and of the same layout further down. -/
def Comparison.lower (shift : Rat) : Comparison Rat where
  across := Eq
  down value other := other = value + shift
  place := Eq
  across_refl _ := rfl
  across_add same width := congrArg (· + width) same
  across_max same more := congrArg₂ Scalar.max same more
  down_add := by
    rintro value _ rfl height
    exact add_right_comm value shift height
  down_sub := by
    rintro value _ rfl height
    exact add_sub_right_comm value shift height
  place_previous same := congrArg Address.previous same

def Branch.slide (shift : Rat) (record : Branch Rat) : Branch Rat :=
  { record with
    branchY := record.branchY + shift
    startY := record.startY + shift
    endY := record.endY + shift }

def LayoutElement.slide (shift : Rat) (placed : LayoutElement Rat) : LayoutElement Rat :=
  { placed with y := placed.y + shift }

/-- A layout further down, and all else as it is. -/
def LayoutResult.slide (shift : Rat) (layout : LayoutResult Rat) : LayoutResult Rat :=
  { layout with
    y := layout.y + shift
    elements := layout.elements.map (LayoutElement.slide shift)
    branches := layout.branches.map (Branch.slide shift) }

variable {shift : Rat}

theorem Branch.slide_zero (record : Branch Rat) : record.slide 0 = record := by
  unfold slide
  simp only [add_zero]

theorem LayoutResult.slide_zero (layout : LayoutResult Rat) : layout.slide 0 = layout := by
  have records : Branch.slide 0 = id := funext Branch.slide_zero
  have elements : LayoutElement.slide 0 = id := funext fun placed => by
    unfold LayoutElement.slide
    rw [add_zero]
    rfl
  unfold slide
  rw [records, elements, List.map_id, List.map_id, add_zero]

theorem Branch.Compares.eq_slide {record other : Branch Rat}
    (same : record.Compares (.lower shift) other) : other = record.slide shift := by
  cases record
  cases other
  simp only [Branch.slide, Branch.mk.injEq]
  exact ⟨same.id_eq, same.rungNumber_eq, same.parentId_eq, same.childIds_eq, same.rootId_eq,
    Eq.symm same.start, Eq.symm same.finish, same.branchLevel_eq, Eq.symm same.startX,
    Eq.symm same.endX, same.branchY, same.startY, same.endY⟩

theorem LayoutElement.Compares.eq_slide {placed other : LayoutElement Rat}
    (same : placed.Compares (.lower shift) other) : other = placed.slide shift := by
  have element : other.element = placed.element :=
    Element.eq_of_unplaced same.element.unplaced_eq (Eq.symm same.element.place)
  cases placed
  cases other
  simp only [LayoutElement.slide, LayoutElement.mk.injEq]
  exact ⟨element, Eq.symm same.x, same.y, same.width_eq, same.height_eq, same.rungNumber_eq,
    same.railId_eq, same.selected_eq⟩

/-- A rung that begins further down is drawn as before, but further down. -/
theorem LayoutResult.IsOf.eq_slide {config : LayoutConfig Rat} {input : RungInput Rat}
    {layout other : LayoutResult Rat} (isOf : layout.IsOf config input)
    (otherIsOf : other.IsOf config { input with y := input.y + shift }) :
    other = layout.slide shift := by
  have same : List.Forall₂ (Element.Compares (.lower shift)) input.elements input.elements :=
    List.forall₂_same.mpr fun _ _ => ⟨rfl, rfl⟩
  obtain ⟨compares, elements⟩ := isOf.compares otherIsOf ⟨rfl, rfl, rfl⟩ same
  have elements : other.elements.map id = layout.elements.map (LayoutElement.slide shift) :=
    map_eq_map_of_forall₂ elements fun same => same.eq_slide
  have branches : other.branches.map id = layout.branches.map (Branch.slide shift) :=
    map_eq_map_of_forall₂ compares.branches fun same => same.eq_slide
  rw [List.map_id] at elements branches
  cases layout
  cases other
  simp only [LayoutResult.slide, LayoutResult.mk.injEq]
  exact ⟨compares.rungNumber_eq, compares.y, compares.height_eq, compares.commentHeight_eq,
    compares.rowCount_eq, compares.maxBranchDepth_eq, Eq.symm compares.rightEdge,
    Eq.symm compares.rightRailX, elements, branches⟩

/-! ### Rungs around an edited one -/

namespace Drawing

/--
A drawing whose arena has the branches of its layouts: for each rung those of its own layout,
ordered by their handles, and each of them is found by its handle.
-/
structure KeepsRecords (drawing : Drawing Rat) : Prop where
  sorted : drawing.arena.IsSorted
  perm : ∀ index layout, drawing.layouts[index]? = some layout →
    (drawing.arena.forRung (.ofNat index)).Perm layout.branches
  found : ∀ layout ∈ drawing.layouts, ∀ record ∈ layout.branches,
    drawing.arena.get? record.id = some record

theorem LaidOut.keepsRecords {drawing : Drawing Rat} (laid : drawing.LaidOut) :
    drawing.KeepsRecords := by
  refine ⟨laid.sorted, fun index layout cached => ?_, fun layout member record isBranch => ?_⟩
  · obtain ⟨rung, draws⟩ := laid.exists_draws_of_cached cached
    have ids : layout.branches.map Branch.id = rung.handles := draws.isOf.ids_eq
    have distinct : (layout.branches.map Branch.id).Nodup :=
      ids ▸ (laid.sound.rungAt draws.stands).nodup_handles
    have ordered : Arena.IsSorted ⟨drawing.arena.forRung (.ofNat index)⟩ :=
      laid.sorted.sublist List.filter_sublist
    exact (List.perm_ext_iff_of_nodup ordered.nodup (List.Nodup.of_map _ distinct)).mpr
      fun _ => draws.mem_forRung
  · obtain ⟨index, cached⟩ := List.mem_iff_getElem?.mp member
    obtain ⟨rung, draws⟩ := laid.exists_draws_of_cached cached
    exact laid.sorted.get?_eq ((draws.branches record).mp isBranch).1

/--
What an edit of one rung leaves of the others: those above stay, and those below slide by what
the edited rung has become higher, with the records of their branches.  The records of a rung
are those of its layout both before and after the edit.
-/
structure Slides (before after : Drawing Rat) (index : Nat) (shift : Rat) : Prop where
  records : before.KeepsRecords ∧ after.KeepsRecords
  edited : ∃ old new, before.layouts[index]? = some old ∧ after.layouts[index]? = some new ∧
    new.y = old.y ∧ new.height = old.height + shift
  above : ∀ other < index, after.layouts[other]? = before.layouts[other]? ∧
    after.arena.forRung (.ofNat other) = before.arena.forRung (.ofNat other) ∧
    ∀ record ∈ before.arena.forRung (.ofNat other),
      after.arena.get? record.id = some record
  below : ∀ other, index < other →
    after.layouts[other]? = before.layouts[other]?.map (LayoutResult.slide shift) ∧
    after.arena.forRung (.ofNat other) =
      (before.arena.forRung (.ofNat other)).map (Branch.slide shift) ∧
    ∀ record ∈ before.arena.forRung (.ofNat other),
      after.arena.get? record.id = some (record.slide shift)

variable {before after : Drawing Rat} {index : Nat}

theorem LaidOut.forRung_eq_nil (laid : before.LaidOut) (beyond : before.routine.size ≤ index) :
    before.arena.forRung (.ofNat index) = [] := by
  refine List.filter_eq_nil_iff.mpr fun record member => ?_
  obtain ⟨own, bounded, named⟩ := laid.numbered record member
  rw [beq_iff_eq, named, Address.ofNat_inj]
  omega

theorem isSorted_map_slide {records : List (Branch Rat)} (sorted : Arena.IsSorted ⟨records⟩) :
    Arena.IsSorted ⟨records.map (Branch.slide shift)⟩ := by
  refine ⟨?_, List.pairwise_map.mpr sorted.ascending⟩
  intro record member
  obtain ⟨own, isOwn, rfl⟩ := List.mem_map.mp member
  exact sorted.counted own isOwn

/-- Two drawings with the same rungs but for one. -/
structure DiffersAt (before after : Drawing Rat) (index : Nat) : Prop where
  laid : before.LaidOut
  laidAfter : after.LaidOut
  config_eq : after.config = before.config
  size_eq : after.routine.size = before.routine.size
  rungs_eq : ∀ other ≠ index, after.routine.rungs[other]? = before.routine.rungs[other]?

namespace DiffersAt

variable (differs : DiffersAt before after index) {other : Nat}
include differs

/-- A rung that is the same slides if it begins further down. -/
theorem draws_slide (apart : other ≠ index) {rung : Rung} {layout : LayoutResult Rat}
    (draws : before.Draws other rung layout)
    (lower : after.bandStart other = before.bandStart other + shift) :
    after.Draws other rung (layout.slide shift) := by
  have standsAfter : after.routine.rungs[other]? = some rung :=
    (differs.rungs_eq other apart).trans draws.stands
  obtain ⟨new, drawsAfter⟩ := differs.laidAfter.draws other rung standsAfter not_false
  have isOfAfter := drawsAfter.isOf
  rw [differs.config_eq, lower] at isOfAfter
  have slid : new = layout.slide shift := draws.isOf.eq_slide isOfAfter
  exact slid ▸ drawsAfter

theorem bandStart_above (within : other ≤ index) (bounded : other ≤ before.routine.size) :
    after.bandStart other = before.bandStart other + 0 := by
  induction other with
  | zero =>
      rw [add_zero, bandStart, bandStart, differs.config_eq]
  | succ above ih =>
      obtain ⟨rung, layout, draws⟩ := differs.laid.exists_draws bounded
      have start := ih (Nat.le_of_succ_le within) (Nat.le_of_succ_le bounded)
      have drawsAfter := differs.draws_slide (Nat.ne_of_lt within) draws start
      rw [draws.bandStart_succ, drawsAfter.bandStart_succ, start, differs.config_eq, add_zero,
        add_zero]
      rfl

theorem bandStart_below {old new : LayoutResult Rat} {rung edited : Rung}
    (draws : before.Draws index rung old) (drawsAfter : after.Draws index edited new)
    (higher : new.height = old.height + shift) (beyond : index < other)
    (bounded : other ≤ before.routine.size) :
    after.bandStart other = before.bandStart other + shift := by
  induction other with
  | zero => exact absurd beyond (Nat.not_lt_zero index)
  | succ above ih =>
      rcases Nat.lt_succ_iff_lt_or_eq.mp beyond with further | rfl
      · obtain ⟨rung, layout, draws⟩ := differs.laid.exists_draws bounded
        have start := ih further (Nat.le_of_succ_le bounded)
        have slid := differs.draws_slide (Nat.ne_of_gt further) draws start
        rw [draws.bandStart_succ, slid.bandStart_succ, start, differs.config_eq]
        change _ + layout.height + _ = _
        ring
      · have start := differs.bandStart_above le_rfl (Nat.le_of_succ_le bounded)
        rw [draws.bandStart_succ, drawsAfter.bandStart_succ, start, higher, differs.config_eq]
        ring

/-- What is kept of a rung that slides. -/
theorem slid (apart : other ≠ index)
    (lower : other < before.routine.size →
      after.bandStart other = before.bandStart other + shift) :
    after.layouts[other]? = before.layouts[other]?.map (LayoutResult.slide shift) ∧
    after.arena.forRung (.ofNat other) =
      (before.arena.forRung (.ofNat other)).map (Branch.slide shift) ∧
    ∀ record ∈ before.arena.forRung (.ofNat other),
      after.arena.get? record.id = some (record.slide shift) := by
  by_cases bounded : other < before.routine.size
  · obtain ⟨rung, layout, draws⟩ := differs.laid.exists_draws bounded
    have slid := differs.draws_slide apart draws (lower bounded)
    refine ⟨by rw [slid.cached, draws.cached, Option.map_some], ?_, ?_⟩
    · have sorted : Arena.IsSorted ⟨after.arena.forRung (.ofNat other)⟩ :=
        differs.laidAfter.sorted.sublist List.filter_sublist
      have sortedToo : Arena.IsSorted
          ⟨(before.arena.forRung (.ofNat other)).map (Branch.slide shift)⟩ :=
        isSorted_map_slide (differs.laid.sorted.sublist List.filter_sublist)
      refine congrArg Arena.records (sorted.ext sortedToo fun record => ?_)
      rw [slid.mem_forRung, List.mem_map]
      simp only [draws.mem_forRung]
      exact List.mem_map
    · intro record member
      have inLayout := draws.mem_forRung.mp member
      have inArena := ((slid.branches _).mp (List.mem_map_of_mem inLayout)).1
      exact differs.laidAfter.sorted.get?_eq inArena
  · have beyond := Nat.le_of_not_lt bounded
    have noLayout := List.getElem?_eq_none (differs.laid.length_layouts.trans_le beyond)
    have noLayoutToo : after.layouts[other]? = none :=
      List.getElem?_eq_none
        ((differs.laidAfter.length_layouts.trans differs.size_eq).trans_le beyond)
    have none := differs.laid.forRung_eq_nil beyond
    have noneToo := differs.laidAfter.forRung_eq_nil (differs.size_eq.trans_le beyond)
    rw [noLayout, noLayoutToo, none, noneToo]
    exact ⟨rfl, rfl, fun record member => absurd member List.not_mem_nil⟩

theorem slides {old new : LayoutResult Rat} {rung edited : Rung}
    (draws : before.Draws index rung old) (drawsAfter : after.Draws index edited new)
    (higher : new.height = old.height + shift) : Slides before after index shift := by
  have bounded : index < before.routine.size := (List.getElem?_eq_some_iff.mp draws.stands).1
  refine ⟨⟨differs.laid.keepsRecords, differs.laidAfter.keepsRecords⟩,
    ⟨old, new, draws.cached, drawsAfter.cached, ?_, higher⟩, ?_, ?_⟩
  · rw [drawsAfter.isOf.y_eq, draws.isOf.y_eq]
    exact (differs.bandStart_above le_rfl bounded.le).trans (add_zero _)
  · intro other above
    have start (inside : other < before.routine.size) :
        after.bandStart other = before.bandStart other + 0 :=
      differs.bandStart_above above.le inside.le
    have slid := differs.slid (Nat.ne_of_lt above) start
    have records : Branch.slide 0 = id := funext Branch.slide_zero
    have layouts : LayoutResult.slide 0 = id := funext LayoutResult.slide_zero
    rw [records, layouts, List.map_id, Option.map_id] at slid
    exact slid
  · exact fun other beyond => differs.slid (Nat.ne_of_gt beyond) fun inside =>
      differs.bandStart_below draws drawsAfter higher beyond inside.le

end DiffersAt

/-! ### Edits of one rung -/

variable {β : Type} {edit : Action OpenRung β} {answer : β}

/-- An edit of one rung that succeeds leaves all other rungs of the routine. -/
theorem LaidOut.exists_of_editRung (laid : before.LaidOut) {own : Instruction → Prop}
    (atomic : Rung.IsAtomic own edit) {address : Address}
    (succeeds : (editRung address edit).on before = (.ok answer, after)) :
    ∃ index rung state, address = .ofNat index ∧ before.routine.rungs[index]? = some rung ∧
      edit.on ⟨rung, before.routine.nextId⟩ = (.ok answer, state) ∧
      after.routine.rungs[index]? = some state.rung ∧ DiffersAt before after index := by
  obtain ⟨index, rung, state, rfl, stands, _, edits, laidFinal, sameConfig, sameRoutine⟩ :=
    laid.exists_of_on_editRung atomic succeeds
  have rungs : after.routine.rungs = before.routine.rungs.set index state.rung :=
    congrArg Routine.rungs sameRoutine
  have bounded := (List.getElem?_eq_some_iff.mp stands).1
  refine ⟨index, rung, state, rfl, stands, edits, ?_, laid, laidFinal, sameConfig, ?_, ?_⟩
  · rw [rungs, List.getElem?_set_self bounded]
  · exact (congrArg List.length rungs).trans List.length_set
  · intro other apart
    rw [rungs, List.getElem?_set_ne apart.symm]

/-- The rungs around an edited one slide by what it has become higher. -/
theorem DiffersAt.exists_slides (differs : DiffersAt before after index) {rung edited : Rung}
    (stands : before.routine.rungs[index]? = some rung)
    (standsAfter : after.routine.rungs[index]? = some edited) :
    ∃ shift, Slides before after index shift := by
  obtain ⟨old, draws⟩ := differs.laid.draws index rung stands not_false
  obtain ⟨new, drawsAfter⟩ := differs.laidAfter.draws index edited standsAfter not_false
  exact ⟨new.height - old.height,
    differs.slides draws drawsAfter (add_sub_cancel old.height new.height).symm⟩

/--
After any run of edits, an edit of one rung that succeeds leaves the rungs above it as they are
drawn, with the records of their branches.  Each rung below slides as a whole, by as much as the
edited rung has become higher: its layout and the records of its branches are the old ones but
for the heights, all of which have grown by that amount.  Before and after the edit the records
in the arena are the branches of the layouts.
-/
theorem edit_slides (config : LayoutConfig Rat) {routine : Routine}
    (reachable : routine.Reachable) (edits : List Edit) {drawing : Drawing Rat}
    (isRun : drawing = (ofRoutine config routine).2.run edits) {edit : Edit} {address : Address}
    (onRung : edit.rung? = some address) {answer : edit.Answer} {after : Drawing Rat}
    (succeeds : drawing.apply edit = (.ok answer, after)) :
    ∃ index shift, address = .ofNat index ∧ Slides drawing after index shift := by
  obtain ⟨laid, _⟩ := laidOut_of_isRun reachable isRun
  obtain ⟨change, acts, atomic, _⟩ := exists_act_eq_editRung (α := Rat) onRung
  rw [Drawing.apply, acts] at succeeds
  obtain ⟨index, rung, state, isIndex, stands, _, standsAfter, differs⟩ :=
    laid.exists_of_editRung atomic succeeds
  obtain ⟨shift, slides⟩ := differs.exists_slides stands standsAfter
  exact ⟨index, shift, isIndex, slides⟩

/-- A third rail in the branch of the first rung makes the second rung slide by a row. -/
theorem edit_slides_of_sample :
    ∃ routine, Routine.ofSource Routine.sampleSource = .ok routine ∧
      ∃ (drawing after : Drawing Rat) (id : BranchId),
        drawing = (ofRoutine .standard routine).2 ∧
        drawing.apply sampleRail = (.ok id, after) ∧
        drawing.layouts.map (·.height) = [200, 80] ∧ after.layouts.map (·.height) = [260, 80] ∧
        Slides drawing after 0 60 := by
  have computed : (Routine.ofSource Routine.sampleSource).toOption.map (fun routine =>
      let drawing : Drawing Rat := (ofRoutine .standard routine).2
      ((drawing.apply sampleRail).1.toOption.isSome, drawing.layouts.map (·.height),
        (drawing.apply sampleRail).2.layouts.map (·.height))) =
      some (true, [200, 80], [260, 80]) := by
    decide +kernel
  obtain ⟨routine, loads, evaluated⟩ := exists_ok_of_map computed
  obtain ⟨answered, heights⟩ := Prod.mk.inj evaluated
  obtain ⟨heightsBefore, heightsAfter⟩ := Prod.mk.inj heights
  obtain ⟨id, after, inserts⟩ := exists_ok_pair_of_isSome answered
  rw [inserts] at heightsAfter
  obtain ⟨index, shift, isIndex, slides⟩ :=
    edit_slides .standard (.loaded loads) [] rfl (rfl : sampleRail.rung? = some _) inserts
  obtain rfl : 0 = index := Address.ofNat_inj.mp isIndex
  have slides : Slides (ofRoutine .standard routine).2 after 0 shift := slides
  obtain ⟨old, new, cached, cachedAfter, _, higher⟩ := slides.edited
  have oldHeight := congrArg (·[0]?) heightsBefore
  have newHeight := congrArg (·[0]?) heightsAfter
  simp only [List.getElem?_map, cached, cachedAfter, Option.map_some] at oldHeight newHeight
  rw [Option.some.inj oldHeight, Option.some.inj newHeight] at higher
  obtain rfl : shift = 60 := by linarith
  exact ⟨routine, loads, _, after, id, rfl, inserts, heightsBefore, heightsAfter, slides⟩

end Drawing
end LadderDiagram
