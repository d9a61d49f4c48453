import LadderDiagram.Proofs.Drawing.Insertion
import LadderDiagram.Proofs.Drawing.Locate

/-!
# The gap under a point

Whatever numbers a drawing is made with, a point leads to a gap of one of its rungs and to the
rail of this gap, or the pointer was not where anything can be put.
-/

namespace LadderDiagram

variable {α : Type} [Scalar α]

/-- A box that is chosen among some is one of them. -/
theorem Branch.mem_of_foldl_smaller {records : List (Branch α)} {best : Option (Branch α)}
    {found : Branch α} (chosen : records.foldl smaller best = some found) :
    found ∈ records ∨ best = some found := by
  induction records generalizing best with
  | nil => exact Or.inr chosen
  | cons record rest ih =>
      rcases ih chosen with later | here
      · exact Or.inl (List.mem_cons_of_mem _ later)
      · unfold smaller at here
        split at here
        next => exact Or.inl (Option.some.inj here ▸ List.mem_cons_self)
        next best =>
          split at here
          next => exact Or.inl (Option.some.inj here ▸ List.mem_cons_self)
          next => exact Or.inr here

/-- A target names a gap of a rung and the rail on which the gap lies. -/
structure InsertionTarget.Names (target : InsertionTarget) (routine : Routine) (index : Nat)
    (rung : Rung) (gap : Nat) : Prop where
  stands : routine.rungs[index]? = some rung
  within : gap ≤ rung.elements.length
  rungNumber_eq : target.rungNumber = .ofNat index
  position_eq : target.position = .ofNat gap
  branchId_eq : target.branchId = railAtGap rung.elements gap

namespace Drawing

variable {drawing : Drawing α} {index : Nat} {rung : Rung} {layout : LayoutResult α}

theorem innermost_mem {number : Address} {x y : α} {branch : Branch α}
    (chosen : drawing.innermost number x y = some branch) :
    branch ∈ drawing.arena.forRung number := by
  rcases Branch.mem_of_foldl_smaller chosen with member | absent
  · exact List.mem_of_mem_filter member
  · cases absent

theorem LaidOut.exists_draws_of_rungUnder (laid : drawing.LaidOut) {y : α}
    (under : drawing.rungUnder y = some layout) :
    ∃ index rung, drawing.Draws index rung layout := by
  obtain ⟨index, cached⟩ := List.mem_iff_getElem?.mp (List.mem_of_find?_eq_some under)
  exact ⟨index, laid.exists_draws_of_cached cached⟩

/-- The rail that is found under a point has a gap, and its level is the one that is found. -/
theorem LaidOut.exists_gap_of_locate (laid : drawing.LaidOut) {x y : α} {hit : RailHit}
    (located : drawing.locate x y = some hit) :
    ∃ index rung gap, drawing.routine.rungs[index]? = some rung ∧
      hit.rungNumber = .ofNat index ∧ gap ≤ rung.elements.length ∧
      railAtGap rung.elements gap = hit.branchId ∧
      drawing.findInsertionPosition x hit.rungNumber hit.branchLevel hit.branchId =
        .ok (.ofNat gap) := by
  obtain ⟨layout, under, rfl⟩ := Option.map_eq_some_iff.mp located
  obtain ⟨index, rung, draws⟩ := laid.exists_draws_of_rungUnder under
  have number := draws.rungNumber_eq laid
  cases chosen : drawing.innermost layout.rungNumber x y with
  | none =>
      obtain ⟨level, start, recorded, _, finds⟩ := draws.exists_gap laid (Or.inl rfl)
      obtain ⟨gap, within, onRail, found⟩ := finds x
      obtain ⟨_, rfl, _⟩ : none = none ∧ level = 0 ∧ start = 0 := by
        rcases recorded with isMain | ⟨record, _, absent, _⟩
        · exact isMain
        · cases absent
      exact ⟨index, rung, gap, draws.stands, number, within, onRail, number ▸ found⟩
  | some branch =>
      have member := innermost_mem chosen
      rw [number, draws.mem_forRung] at member
      have opened : branch.id ∈ openedIds (drafts rung.elements) :=
        draws.isOf.ids_eq ▸ List.mem_map_of_mem member
      obtain ⟨level, start, recorded, _, finds⟩ :=
        draws.exists_gap laid (Or.inr ⟨branch.id, opened, rfl⟩)
      obtain ⟨gap, within, onRail, found⟩ := finds x
      have sameLevel : branch.branchLevel.next = .ofNat level := by
        rcases recorded with ⟨absent, _⟩ | ⟨record, isRecord, same, named, _⟩
        · cases absent
        · have own := draws.branch?_eq laid isRecord
          rw [← Option.some.inj same, draws.branch?_eq laid member] at own
          rw [Option.some.inj own]
          exact named
      refine ⟨index, rung, gap, draws.stands, number, within, onRail, ?_⟩
      dsimp only
      rw [number, sameLevel]
      exact found

/-- A point leads to a gap with its rail, or to an error that a pointer action may ignore. -/
theorem LaidOut.resolveInsertion_cases (laid : drawing.LaidOut) (x y : α) :
    (∃ error, drawing.resolveInsertion x y = .error error ∧ error.recoverable = true) ∨
      ∃ target index rung gap, drawing.resolveInsertion x y = .ok target ∧
        target.Names drawing.routine index rung gap := by
  unfold resolveInsertion
  split
  next => exact Or.inl ⟨_, rfl, rfl⟩
  next =>
    unfold resolve
    cases located : drawing.locate x y with
    | none => exact Or.inl ⟨_, rfl, rfl⟩
    | some hit =>
        obtain ⟨index, rung, gap, stands, number, within, onRail, found⟩ :=
          laid.exists_gap_of_locate located
        refine Or.inr ⟨⟨hit.rungNumber, hit.branchLevel, hit.branchId, .ofNat gap⟩, index, rung,
          gap, ?_, stands, within, number, rfl, onRail.symm⟩
        simp only [found, ok_bind, pure_eq_ok]

/-- What is drawn of a rung is named by the number of the rung and by its own place there. -/
theorem Draws.exists_place (laid : drawing.LaidOut) (draws : drawing.Draws index rung layout)
    {placed : LayoutElement α} (member : placed ∈ layout.elements) :
    ∃ place, rung.elements[place]? = some placed.element ∧ placed.position = .ofNat place ∧
      placed.rungNumber = .ofNat index := by
  have stands : placed.element ∈ rung.elements :=
    draws.map_element_eq laid ▸ List.mem_map_of_mem member
  obtain ⟨place, stands⟩ := List.mem_iff_getElem?.mp stands
  refine ⟨place, stands, ?_, ?_⟩
  · exact position_of_annotate (laid.sound.rungAt draws.stands).annotated stands
  · obtain ⟨tree, _, _, same⟩ := draws.exists_shape laid
    have inShape : placed.shape ∈ layout.shape.elements := List.mem_map_of_mem member
    rw [same] at inShape
    obtain ⟨own, isOwn, sameShape⟩ := List.mem_map.mp inShape
    have number := congrArg LayoutElement.rungNumber sameShape
    exact number.symm.trans (tree.rungNumber_placed _ _ _ _ _ own isOwn)

/-- An element that is found under a point is one of a rung. -/
theorem LaidOut.exists_place_of_elementAt (laid : drawing.LaidOut) {x y : α}
    {placed : LayoutElement α} (found : drawing.elementAt x y = some placed) :
    ∃ index rung place, drawing.routine.rungs[index]? = some rung ∧
      rung.elements[place]? = some placed.element ∧ placed.rungNumber = .ofNat index ∧
      placed.position = .ofNat place := by
  obtain ⟨layout, under, found⟩ := Option.bind_eq_some_iff.mp found
  obtain ⟨index, rung, draws⟩ := laid.exists_draws_of_rungUnder under
  have member : placed ∈ layout.elements := by
    rcases Option.or_eq_some_iff.mp found with hit | ⟨_, first⟩
    · exact List.mem_of_mem_filter (List.mem_of_find?_eq_some hit)
    · exact List.mem_of_mem_filter (List.mem_of_head? first)
  obtain ⟨place, stands, position, number⟩ := draws.exists_place laid member
  exact ⟨index, rung, place, draws.stands, stands, number, position⟩

end Drawing
end LadderDiagram
