import LadderDiagram.Proofs.Drawing.Insertion
import LadderDiagram.Proofs.Drawing.Moving
import LadderDiagram.Proofs.Drawing.Removing
import LadderDiagram.Proofs.Drawing.Report
import LadderDiagram.Proofs.Drawing.Sliding
import LadderDiagram.Proofs.Layout.Levels
import LadderDiagram.Proofs.Layout.Records

/-!
# Edits of instructions

An instruction that is put into a rung, replaced, deleted or moved within its rung leaves
everything else at its height: it changes neither the number of rows nor what stands on them.
So the band of the rung stays, no other rung slides, and the rung alone is laid out again.
An instruction that is put in pushes what is behind it to the right, and leaves all else where
it was.
-/

namespace LadderDiagram
namespace Rung

open OpenRung

/-- Two rungs with one comment that are alike without an instruction each, if one is named. -/
structure Trades (before after : Rung) (gone come : Option Nat) : Prop where
  comment_eq : after.comment = before.comment
  base : ∃ base, WellNested (drafts base) ∧ HoldsBesides base gone before.elements ∧
    HoldsBesides base come after.elements

section Trades

variable {rung : Rung} {nextId : Nat} {answer : Element} {state : OpenRung}
  {source target : Address} {rail : Option BranchId} {content : Instruction}
  (sound : OpenRung.IsSound ⟨rung, nextId⟩)
include sound

/-- A sequence that is the one of the rung without an instruction of each. -/
theorem trades_of_eraseIdx {source : List Draft} {elements : List Element} {place landing : Nat}
    {old : Instruction} (found : (drafts rung.elements)[place]? = some (.instruction old))
    (annotates : annotate source = .ok elements)
    (placed : source[landing]? = some (.instruction content))
    (same : source.eraseIdx landing = (drafts rung.elements).eraseIdx place) :
    Trades rung (.ofElements elements rung.comment) (some place) (some landing) := by
  obtain ⟨base, annotatesBase⟩ :=
    exists_annotate_iff.mpr (sound.wellNested.eraseInstruction found)
  have nested : WellNested (drafts base) := by
    rw [drafts_of_annotate annotatesBase]
    exact sound.wellNested.eraseInstruction found
  exact ⟨rfl, base, nested, holdsBesides_of_eraseIdx sound.rung.annotated found annotatesBase,
    holdsBesides_of_eraseIdx annotates placed (same.symm ▸ annotatesBase)⟩

theorem trades_of_insertInstruction
    (succeeds : (insertInstruction target rail content).on ⟨rung, nextId⟩ =
      (.ok answer, state)) :
    ∃ gap ≤ rung.elements.length, target = .ofNat gap ∧
      state.rung.elements[gap]? = some answer ∧ Trades rung state.rung none (some gap) ∧
      state.rung.elements.take gap = rung.elements.take gap := by
  rcases insertInstruction_cases sound target rail content with ⟨error, _, fails⟩ |
    ⟨gap, elements, element, rfl, bounded, annotates, stands, inserts⟩
  · rw [succeeds] at fails
    cases fails
  rw [succeeds] at inserts
  cases inserts
  have annotatesRung : annotate (drafts rung.elements) = .ok rung.elements := sound.rung.annotated
  have within : gap ≤ rung.elements.length := by rwa [elements_mk, length_drafts] at bounded
  refine ⟨gap, within, rfl, stands, ⟨rfl, rung.elements, sound.wellNested, .nothing, ?_⟩, ?_⟩
  · refine holdsBesides_of_eraseIdx annotates (List.getElem?_insertIdx_self.trans (if_pos bounded))
      ?_
    rw [List.eraseIdx_insertIdx_self]
    exact annotatesRung
  · refine take_eq_of_annotate annotates annotatesRung ?_
    exact List.take_insertIdx_eq_take_of_le _ _ _ _ le_rfl

theorem trades_of_replaceInstruction
    (succeeds : (replaceInstruction target content).on ⟨rung, nextId⟩ = (.ok answer, state)) :
    ∃ place replaced old, target = .ofNat place ∧ rung.elements[place]? = some replaced ∧
      replaced.draft = .instruction old ∧ state.rung.elements[place]? = some answer ∧
      answer.draft = .instruction content ∧ answer.railId = replaced.railId ∧
      Trades rung state.rung (some place) (some place) := by
  unfold replaceInstruction at succeeds
  obtain ⟨⟨place, _, old⟩, asked, succeeds⟩ := Action.exists_of_on_bind_ask succeeds
  obtain ⟨rfl, found⟩ := exists_of_instructionAt asked
  dsimp only at succeeds found
  rw [Action.on_bind, Action.on_get] at succeeds
  have bounded := (List.getElem?_eq_some_iff.mp found).1
  have placed : ((drafts rung.elements).set place (.instruction content))[place]? =
      some (.instruction content) := List.getElem?_set_self bounded
  obtain ⟨elements, element, annotates, stands, places⟩ :=
    exists_place (sound.wellNested.setInstruction found content) placed ⟨rung, nextId⟩
  dsimp only at succeeds
  cases succeeds.symm.trans places
  have annotatesRung : annotate (drafts rung.elements) = .ok rung.elements := sound.rung.annotated
  have trades := trades_of_eraseIdx sound found annotates placed List.eraseIdx_set_eq
  obtain ⟨replaced, isReplaced, holds, _, rail⟩ :=
    exists_element_of_annotate annotatesRung found (Or.inl rfl)
  obtain ⟨own, isOwn, holdsToo, _, railToo⟩ :=
    exists_element_of_annotate annotates placed (Or.inl rfl)
  cases stands.symm.trans isOwn
  rw [railAtGap_eq_railAfter annotatesRung bounded.le] at rail
  rw [railAtGap_eq_railAfter annotates (bounded.le.trans_eq List.length_set.symm),
    List.take_set_of_le le_rfl] at railToo
  exact ⟨place, replaced, old, rfl, isReplaced, holds, stands, holdsToo, railToo.trans rail.symm,
    trades⟩

theorem trades_of_deleteElement {place : Nat} {removed : List Element}
    (found : (drafts rung.elements)[place]? = some (.instruction content))
    (succeeds : (deleteElement (.ofNat place)).on ⟨rung, nextId⟩ = (.ok removed, state)) :
    Trades rung state.rung (some place) none := by
  obtain ⟨elements, annotates, deletes⟩ :=
    exists_on_deleteElement sound (IsSubtree.instruction found)
  rw [← List.eraseIdx_eq_take_drop_succ] at annotates
  cases succeeds.symm.trans deletes
  exact ⟨rfl, elements, wellNested_of_annotate (drafts_of_annotate annotates ▸ annotates),
    holdsBesides_of_eraseIdx sound.rung.annotated found annotates, .nothing⟩

theorem trades_of_moveInstruction
    (succeeds : (moveInstruction source target rail).on ⟨rung, nextId⟩ = (.ok answer, state)) :
    ∃ place moved landing content, source = .ofNat place ∧ rung.elements[place]? = some moved ∧
      moved.draft = .instruction content ∧ state.rung.elements[landing]? = some answer ∧
      answer.draft = .instruction content ∧
      Trades rung state.rung (some place) (some landing) := by
  obtain ⟨place, content, landing, rfl, found, rfl, within, onRail⟩ :=
    exists_of_on_moveInstruction sound succeeds
  -- The place of landing is counted without the instruction; some gap of the whole rung is it.
  obtain ⟨gap, inRung, counted⟩ :
      ∃ gap ≤ rung.elements.length, gapWithout place gap = landing := by
    unfold gapWithout
    by_cases before : landing < place
    · exact ⟨landing, within.le, if_neg (by omega)⟩
    · exact ⟨landing + 1, within, by rw [if_pos (by omega)]; omega⟩
  obtain ⟨elements, element, places, moves⟩ := on_moveInstruction sound found inRung
  rw [counted, onRail gap inRung counted] at moves
  rw [counted] at places
  cases succeeds.symm.trans moves
  have bounded : landing ≤ ((drafts rung.elements).eraseIdx place).length := by
    have short := (List.getElem?_eq_some_iff.mp found).1
    rw [List.length_eraseIdx_of_lt short, length_drafts]
    omega
  obtain ⟨moved, isMoved, holds⟩ :=
    Option.map_eq_some_iff.mp ((drafts_getElem? rung.elements place).symm.trans found)
  exact ⟨place, moved, landing, content, rfl, isMoved, holds, places.stands, places.draft_eq,
    trades_of_eraseIdx sound found places.annotates
      (List.getElem?_insertIdx_self.trans (if_pos bounded)) (List.eraseIdx_insertIdx_self _)⟩

end Trades
end Rung

namespace Drawing

variable {before after : Drawing Rat} {index : Nat} {rung edited : Rung}
  {old new : LayoutResult Rat} {gone come : Option Nat}

/-- What is drawn of an element of a rung has its rail. -/
theorem Draws.exists_placed (laid : before.LaidOut) (draws : before.Draws index rung old)
    {place : Nat} {element : Element} (stands : rung.elements[place]? = some element) :
    ∃ placed, old.elements[place]? = some placed ∧ placed.element = element ∧
      placed.railId = element.railId := by
  obtain ⟨tree, annotated, nested, same⟩ := draws.exists_shape laid
  have drawn := (tree.layout_matches nested (rungInput index 0 rung)).of_shape_eq same
  rw [← annotated] at drawn
  have elements := congrArg (·[place]?) drawn.placed
  have rails := congrArg (·[place]?) drawn.rails
  simp only [List.getElem?_map, stands, Option.map_some] at elements rails
  obtain ⟨placed, isPlaced, isElement⟩ := Option.map_eq_some_iff.mp elements
  rw [isPlaced] at rails
  exact ⟨placed, isPlaced, isElement, Option.some.inj rails⟩

/--
What an edit of instructions leaves of a rung, but for the instruction that has gone and the one
that has come, and of all others: everything stays at its height, and the rung alone is laid out
again.  The instruction that has come stands where those on its rail have stood.
-/
structure KeepsLevels (before after : Drawing Rat) (index : Nat) (gone come : Option Nat)
    (old new : LayoutResult Rat) : Prop where
  old_at : before.layouts[index]? = some old
  new_at : after.layouts[index]? = some new
  y_eq : new.y = old.y
  height_eq : new.height = old.height
  rowCount_eq : new.rowCount = old.rowCount
  elements_eq : (new.without come).elements.map LayoutElement.profile =
    (old.without gone).elements.map LayoutElement.profile
  branches_eq : new.branches.map Branch.profile = old.branches.map Branch.profile
  arrived : ∀ placed ∈ new.elements, ∀ content, placed.element.draft = .instruction content →
    ∀ other ∈ old.elements, ∀ own, other.element.draft = .instruction own →
      placed.railId = other.railId → placed.y = other.y
  others : ∀ other ≠ index, after.layouts[other]? = before.layouts[other]?
  relaid_eq : after.relaid = [index]

/-- Nothing but the marked rung is laid out again if no band has changed. -/
theorem Reports.relaid_eq (reports : Reports [index] before after)
    (inside : index < after.routine.size) (unchanged : ∀ above, ¬ ChangesBand before after above) :
    after.relaid = [index] := by
  have only (number : Nat) (member : number ∈ after.relaid) : number = index := by
    by_contra other
    obtain ⟨above, _, _, changes⟩ :=
      reports.caused number member (mt List.mem_singleton.mp other)
    exact unchanged above changes
  have ascending := reports.ascending
  obtain ⟨between, final, _, drains, _⟩ := reports.queue
  have waits : pendingOf after.routine.size [index] = [index] := by
    simp [pendingOf, inside]
  rw [waits] at drains
  -- The queue begins with the marked rung, and nothing else may come up after it.
  generalize after.relaid = numbers at *
  cases drains with
  | @turn _ _ more _ _ _ _ _ stands relays others =>
      cases more with
      | nil => rfl
      | cons number rest =>
          have isIndex := only number (List.mem_cons_of_mem _ List.mem_cons_self)
          have isLess := List.rel_of_pairwise_cons ascending List.mem_cons_self
          exact absurd (isIndex ▸ isLess) (Nat.lt_irrefl index)

namespace DiffersAt

variable (differs : DiffersAt before after index)
include differs

/-- Where the height of the edited rung is what it was, all rungs begin where they began. -/
theorem bandStart_eq (draws : before.Draws index rung old)
    (drawsAfter : after.Draws index edited new) (sameHeight : new.height = old.height)
    {other : Nat} (bounded : other ≤ before.routine.size) :
    after.bandStart other = before.bandStart other + 0 := by
  rcases Nat.lt_or_ge index other with below | above
  · exact differs.bandStart_below draws drawsAfter (sameHeight.trans (add_zero _).symm) below
      bounded
  · exact differs.bandStart_above above bounded

/-- Where the height of the edited rung is what it was, no band has changed. -/
theorem not_changesBand (draws : before.Draws index rung old)
    (drawsAfter : after.Draws index edited new) (sameHeight : new.height = old.height)
    (other : Nat) : ¬ ChangesBand before after other := by
  rintro ⟨band, bandAfter, stands, standsAfter, changed⟩
  have bounded : other < before.routine.size :=
    differs.laid.bands_length ▸ (List.getElem?_eq_some_iff.mp stands).1
  have start := differs.bandStart_eq draws drawsAfter sameHeight bounded.le
  have same : after.bands[other]? = before.bands[other]? := by
    by_cases isIndex : other = index
    · subst isIndex
      rw [draws.band, drawsAfter.band, start, sameHeight, add_zero]
    · obtain ⟨own, layout, ownDraws⟩ := differs.laid.exists_draws bounded
      have kept := differs.draws_slide isIndex ownDraws start
      rw [ownDraws.band, kept.band, start, add_zero]
      rfl
  rw [stands, standsAfter] at same
  cases same
  rcases changed with changed | changed <;> exact of_decide_eq_false changed rfl

/-- The other rungs are drawn as before. -/
theorem layouts_eq (draws : before.Draws index rung old)
    (drawsAfter : after.Draws index edited new) (sameHeight : new.height = old.height)
    {other : Nat} (apart : other ≠ index) : after.layouts[other]? = before.layouts[other]? := by
  have start (inside : other < before.routine.size) :
      after.bandStart other = before.bandStart other + 0 :=
    differs.bandStart_eq draws drawsAfter sameHeight inside.le
  have slid := (differs.slid apart start).1
  have layouts : LayoutResult.slide 0 = id := funext LayoutResult.slide_zero
  rwa [layouts, Option.map_id] at slid

/-- An edited rung with its comment is drawn from where it was drawn. -/
theorem isOf_edited (draws : before.Draws index rung old)
    (drawsAfter : after.Draws index edited new) (sameComment : edited.comment = rung.comment) :
    new.IsOf before.config { rungInput index (before.bandStart index) rung with
      elements := edited.elements } := by
  have bounded := (List.getElem?_eq_some_iff.mp draws.stands).1
  have isOf := drawsAfter.isOf
  rw [differs.config_eq, differs.bandStart_above le_rfl bounded.le, add_zero, rungInput,
    Rung.commentLines, sameComment] at isOf
  exact isOf

/-- An edit that trades instructions keeps all levels. -/
theorem exists_keepsLevels (stands : before.routine.rungs[index]? = some rung)
    (standsAfter : after.routine.rungs[index]? = some edited)
    (trades : Rung.Trades rung edited gone come) (reports : Reports [index] before after) :
    ∃ old new, before.Draws index rung old ∧ after.Draws index edited new ∧
      new.IsOf before.config { rungInput index (before.bandStart index) rung with
        elements := edited.elements } ∧
      KeepsLevels before after index gone come old new := by
  obtain ⟨old, draws⟩ := differs.laid.draws index rung stands not_false
  obtain ⟨new, drawsAfter⟩ := differs.laidAfter.draws index edited standsAfter not_false
  have isOf := differs.isOf_edited draws drawsAfter trades.comment_eq
  obtain ⟨base, nested, besides, besidesToo⟩ := trades.base
  -- Both rungs are compared with the one that has neither instruction.
  have profile : (new.without come).profile = (old.without gone).profile :=
    profile_without_eq besides besidesToo nested draws.isOf isOf
  have sameHeight : new.height = old.height := (congrArg LayoutResult.height profile :)
  have inside : index < after.routine.size := (List.getElem?_eq_some_iff.mp standsAfter).1
  refine ⟨old, new, draws, drawsAfter, isOf, draws.cached, drawsAfter.cached,
    (congrArg LayoutResult.y profile :), sameHeight, (congrArg LayoutResult.rowCount profile :),
    (congrArg LayoutResult.elements profile :), (congrArg LayoutResult.branches profile :), ?_,
    fun other apart => differs.layouts_eq draws drawsAfter sameHeight apart,
    reports.relaid_eq inside (differs.not_changesBand draws drawsAfter sameHeight)⟩
  intro placed member content holds other memberToo own holdsToo sameRail
  exact draws.isOf.y_eq_of_rail (differs.laid.sound.rungAt stands).wellNested isOf profile
    memberToo member holdsToo holds sameRail

end DiffersAt

/-! ### Edits of instructions -/

/-- A move that succeeds within one rung is an edit of that rung. -/
theorem on_moveWithin_of_moveElement {source : ElementAddress} {target : DropTarget}
    {element : Element} (sameRung : source.rung = target.rung)
    (succeeds : (moveElement source target).on before = (.ok element, after)) :
    (moveWithin source target).on before = (.ok element, after) := by
  unfold moveElement at succeeds
  split at succeeds
  next => exact succeeds
  next differs =>
    -- A rung that is found has a whole number, and two such numbers are compared.
    unfold moveAcross at succeeds
    obtain ⟨⟨origin, rung⟩, found, _⟩ := Action.exists_of_on_bind_ask succeeds
    rw [← sameRung, (Routine.rungAt_eq_ok_iff.mp found).1] at differs
    exact absurd (beq_self_eq_true (origin : Int)) differs

section Edits

variable (laid : before.LaidOut)
include laid

theorem LaidOut.exists_of_editRung_reports {β : Type} {edit : Action OpenRung β} {answer : β}
    {own : Instruction → Prop} (atomic : Rung.IsAtomic own edit) {address : Address}
    (succeeds : (editRung address edit).on before = (.ok answer, after)) :
    ∃ index rung state, address = .ofNat index ∧ before.routine.rungs[index]? = some rung ∧
      edit.on ⟨rung, before.routine.nextId⟩ = (.ok answer, state) ∧
      after.routine.rungs[index]? = some state.rung ∧ DiffersAt before after index ∧
      Reports [index] before after := by
  obtain ⟨index, rung, state, rfl, stands, edits, standsAfter, differs⟩ :=
    laid.exists_of_editRung atomic succeeds
  refine ⟨index, rung, state, rfl, stands, edits, standsAfter, differs,
    laid.reports_editRung atomic (fun own isOwn number => ?_) succeeds⟩
  rw [List.mem_singleton, Address.ofNat_inj.mp isOwn]

theorem LaidOut.keepsLevels_of_insertInstruction {address position : Address}
    {rail : Option BranchId} {content : Instruction} {element : Element}
    (succeeds : before.apply (.insertInstruction address position rail content) =
      (.ok element, after)) :
    ∃ index gap old new placed, address = .ofNat index ∧ position = .ofNat gap ∧
      KeepsLevels before after index none (some gap) old new ∧
      new.elements[gap]? = some placed ∧ placed.element = element ∧
      new.elements.take gap = old.elements.take gap ∧
      (before.config.KeepsRules → PushesRight old new gap) := by
  have atomic : Rung.IsAtomic (fun _ => True) (Rung.insertInstruction position rail content) :=
    Rung.insertInstruction_isAtomic position rail trivial
  obtain ⟨index, rung, state, rfl, stands, edits, standsAfter, differs, reports⟩ :=
    laid.exists_of_editRung_reports atomic succeeds
  obtain ⟨gap, within, rfl, found, trades, front⟩ :=
    Rung.trades_of_insertInstruction (laid.sound.openRung stands) edits
  obtain ⟨old, new, draws, drawsAfter, isOf, keeps⟩ :=
    differs.exists_keepsLevels stands standsAfter trades reports
  obtain ⟨base, _, besides, besidesToo⟩ := trades.base
  cases besides
  have withinToo : gap ≤ state.rung.elements.length := (List.getElem?_eq_some_iff.mp found).1.le
  obtain ⟨placed, isPlaced, rfl, _⟩ := drawsAfter.exists_placed differs.laidAfter found
  exact ⟨index, gap, old, new, placed, rfl, rfl, keeps, isPlaced, rfl,
    draws.isOf.take_elements isOf within withinToo front,
    fun rules => HoldsBesides.pushesRight besidesToo rules draws.isOf isOf⟩

theorem LaidOut.keepsLevels_of_replaceInstruction {address position : Address}
    {content : Instruction} {element : Element}
    (succeeds : before.apply (.replaceInstruction address position content) =
      (.ok element, after)) :
    ∃ index place old new replaced placed, address = .ofNat index ∧ position = .ofNat place ∧
      KeepsLevels before after index (some place) (some place) old new ∧
      old.elements[place]? = some replaced ∧ new.elements[place]? = some placed ∧
      placed.element = element ∧ placed.y = replaced.y := by
  have atomic : Rung.IsAtomic (fun _ => True) (Rung.replaceInstruction position content) :=
    Rung.replaceInstruction_isAtomic position trivial
  obtain ⟨index, rung, state, rfl, stands, edits, standsAfter, differs, reports⟩ :=
    laid.exists_of_editRung_reports atomic succeeds
  obtain ⟨place, own, _, rfl, found, holds, foundAfter, holdsAfter, sameRail, trades⟩ :=
    Rung.trades_of_replaceInstruction (laid.sound.openRung stands) edits
  obtain ⟨old, new, draws, drawsAfter, _, keeps⟩ :=
    differs.exists_keepsLevels stands standsAfter trades reports
  obtain ⟨replaced, isReplaced, rfl, rail⟩ := draws.exists_placed laid found
  obtain ⟨placed, isPlaced, rfl, railAfter⟩ :=
    drawsAfter.exists_placed differs.laidAfter foundAfter
  refine ⟨index, place, old, new, replaced, placed, rfl, rfl, keeps, isReplaced, isPlaced, rfl, ?_⟩
  exact keeps.arrived placed (List.mem_of_getElem? isPlaced) _ holdsAfter replaced
    (List.mem_of_getElem? isReplaced) _ holds (railAfter.trans (sameRail.trans rail.symm))

theorem LaidOut.keepsLevels_of_deleteElement {place : Nat} {content : Instruction}
    {removed : List Element}
    (found : before.routine.draftAt? index place = some (.instruction content))
    (succeeds : before.apply (.deleteElement (.ofNat index) (.ofNat place)) =
      (.ok removed, after)) :
    ∃ old new, KeepsLevels before after index (some place) none old new := by
  have atomic : Rung.IsAtomic (fun _ => True) (Rung.deleteElement (.ofNat place)) :=
    Rung.deleteElement_isAtomic _
  obtain ⟨own, rung, state, isOwn, stands, edits, standsAfter, differs, reports⟩ :=
    laid.exists_of_editRung_reports atomic succeeds
  obtain rfl := Address.ofNat_inj.mp isOwn
  obtain ⟨another, standsToo, drafted⟩ := Routine.exists_of_draftAt? found
  cases stands.symm.trans standsToo
  have trades := Rung.trades_of_deleteElement (laid.sound.openRung stands) drafted edits
  obtain ⟨old, new, _, _, _, keeps⟩ :=
    differs.exists_keepsLevels stands standsAfter trades reports
  exact ⟨old, new, keeps⟩

theorem LaidOut.keepsLevels_of_moveElement {source : ElementAddress} {target : DropTarget}
    {element : Element} (sameRung : source.rung = target.rung)
    (succeeds : before.apply (.moveElement source target) = (.ok element, after)) :
    ∃ index place landing old new moved placed, source.rung = .ofNat index ∧
      source.position = .ofNat place ∧
      KeepsLevels before after index (some place) (some landing) old new ∧
      old.elements[place]? = some moved ∧ new.elements[landing]? = some placed ∧
      placed.element = element ∧ (placed.railId = moved.railId → placed.y = moved.y) := by
  have succeeds := on_moveWithin_of_moveElement sameRung succeeds
  have atomic (place : Address) : Rung.IsAtomic (fun _ => True)
      (Rung.moveInstruction source.position place target.rail) :=
    Rung.moveInstruction_isAtomic _ _ _
  obtain ⟨index, rung, state, isIndex, stands, edits, standsAfter, differs, reports⟩ :=
    laid.exists_of_editRung_reports (atomic _) succeeds
  obtain ⟨place, _, landing, content, isPlace, found, holds, foundAfter, holdsAfter, trades⟩ :=
    Rung.trades_of_moveInstruction (laid.sound.openRung stands) edits
  obtain ⟨old, new, draws, drawsAfter, _, keeps⟩ :=
    differs.exists_keepsLevels stands standsAfter trades reports
  obtain ⟨moved, isMoved, rfl, _⟩ := draws.exists_placed laid found
  obtain ⟨placed, isPlaced, rfl, _⟩ := drawsAfter.exists_placed differs.laidAfter foundAfter
  exact ⟨index, place, landing, old, new, moved, placed, isIndex, isPlace, keeps, isMoved,
    isPlaced, rfl, keeps.arrived placed (List.mem_of_getElem? isPlaced) _ holdsAfter moved
      (List.mem_of_getElem? isMoved) _ holds⟩

end Edits

/--
After any run of edits, an instruction that is put into a rung, replaced, deleted or moved
within its rung leaves everything else at its height: the rung keeps its top, its height and
its rows, all other elements of it keep their heights, and its branches keep theirs.  No other
rung is drawn anew, and the rung alone is reported.  An instruction that replaces another one,
or that is moved along its rail, is at the height of the old one.  Under a valid configuration
an instruction that is put in pushes everything behind it to the right, if anywhere, and under
any configuration what is in front of it stays as it is.
-/
theorem instructions_keepLevels (config : LayoutConfig Rat) {routine : Routine}
    (reachable : routine.Reachable) (edits : List Edit) {drawing : Drawing Rat}
    (isRun : drawing = (ofRoutine config routine).2.run edits) :
    (∀ (rung position : Address) (rail : Option BranchId) (content : Instruction)
        (element : Element) (after : Drawing Rat),
      drawing.apply (.insertInstruction rung position rail content) = (.ok element, after) →
        ∃ index gap old new placed, rung = .ofNat index ∧ position = .ofNat gap ∧
          KeepsLevels drawing after index none (some gap) old new ∧
          new.elements[gap]? = some placed ∧ placed.element = element ∧
          new.elements.take gap = old.elements.take gap ∧
          (config.isValid = true → PushesRight old new gap)) ∧
    (∀ (rung position : Address) (content : Instruction) (element : Element)
        (after : Drawing Rat),
      drawing.apply (.replaceInstruction rung position content) = (.ok element, after) →
        ∃ index place old new replaced placed, rung = .ofNat index ∧ position = .ofNat place ∧
          KeepsLevels drawing after index (some place) (some place) old new ∧
          old.elements[place]? = some replaced ∧ new.elements[place]? = some placed ∧
          placed.element = element ∧ placed.y = replaced.y) ∧
    (∀ (index place : Nat) (content : Instruction) (removed : List Element)
        (after : Drawing Rat),
      drawing.routine.draftAt? index place = some (.instruction content) →
      drawing.apply (.deleteElement (.ofNat index) (.ofNat place)) = (.ok removed, after) →
        ∃ old new, KeepsLevels drawing after index (some place) none old new) ∧
    ∀ (source : ElementAddress) (target : DropTarget) (element : Element) (after : Drawing Rat),
      source.rung = target.rung →
      drawing.apply (.moveElement source target) = (.ok element, after) →
        ∃ index place landing old new moved placed, source.rung = .ofNat index ∧
          source.position = .ofNat place ∧
          KeepsLevels drawing after index (some place) (some landing) old new ∧
          old.elements[place]? = some moved ∧ new.elements[landing]? = some placed ∧
          placed.element = element ∧ (placed.railId = moved.railId → placed.y = moved.y) := by
  obtain ⟨laid, sameConfig⟩ := laidOut_of_isRun reachable isRun
  refine ⟨fun rung position rail content element after succeeds => ?_,
    fun rung position content element after succeeds =>
      laid.keepsLevels_of_replaceInstruction succeeds,
    fun index place content removed after found succeeds =>
      laid.keepsLevels_of_deleteElement found succeeds,
    fun source target element after sameRung succeeds =>
      laid.keepsLevels_of_moveElement sameRung succeeds⟩
  obtain ⟨index, gap, old, new, placed, isIndex, isGap, keeps, isPlaced, isElement, front,
    pushes⟩ := laid.keepsLevels_of_insertInstruction succeeds
  refine ⟨index, gap, old, new, placed, isIndex, isGap, keeps, isPlaced, isElement, front,
    fun valid => pushes ?_⟩
  rw [sameConfig]
  exact LayoutConfig.keepsRules_of_isValid valid

/-- One more contact on the lower rail of the branch. -/
def sampleContact : Edit :=
  .insertInstruction (.ofNat 0) (.ofNat 4) (some (.ofNat 1)) (Instruction.make "XIC" ["E"])

/-- The further contact widens the branch, and nothing of the rung moves up or down. -/
theorem instructions_keepLevels_of_sample :
    ∃ routine, Routine.ofSource Routine.sampleSource = .ok routine ∧
      ∃ (drawing after final : Drawing Rat) (element moved : Element),
        drawing = (ofRoutine .standard routine).2 ∧
        (∃ old new, drawing.apply sampleContact = (.ok element, after) ∧
          KeepsLevels drawing after 0 none (some 4) old new ∧ PushesRight old new 4 ∧
          old.rightEdge = 210 ∧ new.rightEdge = 270) ∧
        drawing.apply sampleMove = (.ok moved, final) ∧
        ∃ landing old new, KeepsLevels drawing final 0 (some 1) (some landing) old new := by
  have computed : (Routine.ofSource Routine.sampleSource).toOption.map (fun routine =>
      let drawing : Drawing Rat := (ofRoutine .standard routine).2
      ((drawing.apply sampleContact).1.toOption.isSome,
        (drawing.apply sampleMove).1.toOption.isSome, drawing.layouts.map (·.rightEdge),
        (drawing.apply sampleContact).2.layouts.map (·.rightEdge))) =
      some (true, true, [210, 100], [270, 100]) := by
    decide +kernel
  obtain ⟨routine, loads, evaluated⟩ := exists_ok_of_map computed
  obtain ⟨isInserted, others⟩ := Prod.mk.inj evaluated
  obtain ⟨isMoved, edges⟩ := Prod.mk.inj others
  obtain ⟨edgesBefore, edgesAfter⟩ := Prod.mk.inj edges
  obtain ⟨element, after, inserts⟩ := exists_ok_pair_of_isSome isInserted
  obtain ⟨moved, final, moves⟩ := exists_ok_pair_of_isSome isMoved
  rw [inserts] at edgesAfter
  obtain ⟨keepsInserted, _, _, keepsMoved⟩ :=
    instructions_keepLevels .standard (.loaded loads) [] rfl
  obtain ⟨index, gap, old, new, _, isIndex, isGap, keeps, _, _, _, pushes⟩ :=
    keepsInserted _ _ _ _ element after inserts
  obtain rfl : 0 = index := Address.ofNat_inj.mp isIndex
  obtain rfl : 4 = gap := Address.ofNat_inj.mp isGap
  obtain ⟨other, place, landing, source, goal, _, _, isOther, isPlace, keepsToo, _⟩ :=
    keepsMoved _ _ moved final rfl moves
  obtain rfl : 0 = other := Address.ofNat_inj.mp isOther
  obtain rfl : 1 = place := Address.ofNat_inj.mp isPlace
  have edge := congrArg (·[0]?) edgesBefore
  have edgeAfter := congrArg (·[0]?) edgesAfter
  have stands : (ofRoutine (.standard : LayoutConfig Rat) routine).2.layouts[0]? =
    some old := keeps.old_at
  simp only [List.getElem?_map, stands, keeps.new_at, Option.map_some] at edge edgeAfter
  exact ⟨routine, loads, _, after, final, element, moved, rfl,
    ⟨old, new, inserts, keeps, pushes (by decide +kernel), Option.some.inj edge,
      Option.some.inj edgeAfter⟩, moves, landing, source, goal, keepsToo⟩

/-- Two instructions that are drawn from right to left where elements recede. -/
def recedingSource : RoutineSource := ⟨none, [⟨some "XIC(A)OTE(B);", none⟩]⟩

/-- A contact between the two instructions. -/
def recedingContact : Edit :=
  .insertInstruction (.ofNat 0) (.ofNat 1) none (Instruction.make "XIC" ["C"])

/-- Where elements recede, a further contact moves the coil behind it to the left. -/
theorem not_pushesRight_of_receding :
    ∃ routine, Routine.ofSource recedingSource = .ok routine ∧ routine.Reachable ∧
      ∃ (drawing after : Drawing Rat) (element : Element) (old new : LayoutResult Rat),
        drawing = (ofRoutine .receding routine).2 ∧
        drawing.apply recedingContact = (.ok element, after) ∧
        drawing.layouts[0]? = some old ∧ after.layouts[0]? = some new ∧
        ¬ PushesRight old new 1 := by
  have computed : (Routine.ofSource recedingSource).toOption.map (fun routine =>
      let drawing : Drawing Rat := (ofRoutine .receding routine).2
      ((drawing.apply recedingContact).1.toOption.isSome,
        drawing.layouts[0]?.map (·.elements.map (·.x)),
        (drawing.apply recedingContact).2.layouts[0]?.map (·.elements.map (·.x)))) =
      some (true, some ([60, -90] : List Rat), some ([60, -90, -240] : List Rat)) := by
    decide +kernel
  obtain ⟨routine, loads, evaluated⟩ := exists_ok_of_map computed
  obtain ⟨isInserted, others⟩ := Prod.mk.inj evaluated
  obtain ⟨placesBefore, placesAfter⟩ := Prod.mk.inj others
  obtain ⟨element, after, inserts⟩ := exists_ok_pair_of_isSome isInserted
  rw [inserts] at placesAfter
  obtain ⟨old, isOld, oldPlaces⟩ := Option.map_eq_some_iff.mp placesBefore
  obtain ⟨new, isNew, newPlaces⟩ := Option.map_eq_some_iff.mp placesAfter
  refine ⟨routine, loads, .loaded loads, _, after, element, old, new, rfl, inserts, isOld, isNew,
    fun pushes => ?_⟩
  have further : List.Forall₂ (· ≤ ·) (old.elements.map (·.x))
      ((new.elements.map (·.x)).eraseIdx 1) := by
    rw [List.eraseIdx_map, List.forall₂_map_left_iff, List.forall₂_map_right_iff]
    exact pushes.elements
  rw [oldPlaces, newPlaces] at further
  obtain _ | ⟨_, _ | ⟨coil, _⟩⟩ := further
  exact absurd coil (by norm_num)

end Drawing
end LadderDiagram
