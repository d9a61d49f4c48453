import LadderDiagram.Proofs.Drawing.Run
import LadderDiagram.Proofs.Rung.Undoing
import LadderDiagram.Proofs.Sequence.Grammar
import LadderDiagram.Proofs.Sequence.Surroundings

/-!
# Deleting elements

What is deleted with an element is what belongs to it: an instruction by itself, a branch with
either of its outer markers, and with the marker of a further rail what stands on that rail.
All of this leaves the branches around it open.  A branch leaves their rails as they are, too.
Behind a further rail another rail is the current one than before it, but the marker that ends
the rail does not tell: it opens a rail of its own or ends the branch.  So in each case what is
behind says of the branches around it what it has said before, and as no handle is used twice,
none that has gone is named any more.
-/

namespace LadderDiagram

/--
What belongs to the element at a place, from one place up to the next one that does not: the
instruction, the branch that the marker starts or ends, or the rail that it opens up to the
next marker of its branch.
-/
inductive IsSubtree (elements : List Element) (place : Nat) : Nat → Nat → Prop
  | instruction {content : Instruction}
      (stands : (drafts elements)[place]? = some (.instruction content)) :
      IsSubtree elements place place (place + 1)
  | branch {id : BranchId} {start finish : Nat} (has : HasBranch elements id start finish)
      (isMarker : place = start ∨ place = finish) : IsSubtree elements place start (finish + 1)
  | rail {id : BranchId} {finish : Nat}
      (stands : (drafts elements)[place]? = some (.branchNext id))
      (spans : SpansRail (drafts elements) id place finish) : IsSubtree elements place place finish

/-- An element names the rail it stands on, its outermost branch, and the handle of its marker. -/
def Element.Names (element : Element) (id : BranchId) : Prop :=
  element.railId = some id ∨ element.rootBranchId = some id ∨ element.branchId = some id

/--
A part of a sequence has been taken out.  The other elements say what they have said before,
none of them names a handle that has gone, and no other handle has gone.
-/
structure HasRemoved (before after : List Element) (start finish : Nat) : Prop where
  others : after.map Element.unplaced =
    (before.take start ++ before.drop finish).map Element.unplaced
  unnamed : ∀ element ∈ after, ∀ id ∈ openedIds (drafts ((before.take finish).drop start)),
    ¬ element.Names id
  kept : ∀ id ∈ openedIds (drafts before),
    id ∉ openedIds (drafts ((before.take finish).drop start)) → id ∈ openedIds (drafts after)

/-- An element names handles of its sequence only. -/
theorem mem_openedIds_of_names {source : List Draft} {elements : List Element}
    (annotates : annotate source = .ok elements) {element : Element} (member : element ∈ elements)
    {id : BranchId} (names : element.Names id) : id ∈ openedIds source := by
  obtain ⟨place, stands⟩ := List.getElem?_of_mem member
  have describes := describes_of_annotate annotates stands
  have ofRail (isRail : element.railId = some id) : id ∈ openedIds source := by
    cases (describes.rail (some id)).mpr isRail with
    | opened isNext => exact mem_openedIds.mpr (Or.inr (List.mem_of_getElem? isNext))
    | inside _ innermost =>
        cases innermost with
        | rail spans _ _ =>
            obtain ⟨opener, atStart, opens⟩ := spans.opens
            exact List.mem_filterMap.mpr ⟨opener, List.mem_of_getElem? atStart, opens⟩
  rcases names with isRail | isRoot | isOwn
  · exact ofRail isRail
  · rw [describes.root] at isRoot
    have started := (List.mem_filter.mp (List.mem_of_head? isRoot)).1
    have upTo := (startedIds_sublist _).subset started
    rw [← List.take_append_drop (place + 1) source, openedIds_append]
    exact List.mem_append_left _ upTo
  · rw [describes.id] at isOwn
    have holds := describes.draft
    cases isDraft : element.draft with
    | instruction content =>
        rw [isDraft] at isOwn
        exact ofRail isOwn
    | branchStart own =>
        rw [isDraft] at isOwn holds
        cases isOwn
        exact mem_openedIds.mpr (Or.inl (List.mem_of_getElem? holds))
    | branchNext own =>
        rw [isDraft] at isOwn holds
        cases isOwn
        exact mem_openedIds.mpr (Or.inr (List.mem_of_getElem? holds))
    | branchEnd own =>
        rw [isDraft] at isOwn holds
        cases isOwn
        obtain ⟨start, starts⟩ := (wellNested_of_annotate annotates).exists_start holds
        exact mem_openedIds.mpr (Or.inl (List.mem_of_getElem? starts))

/-! ### What belongs to an element -/

/-- Every element has a part of the sequence that belongs to it. -/
theorem exists_isSubtree {elements : List Element}
    (annotates : annotate (drafts elements) = .ok elements) {place : Nat} {element : Element}
    (stands : elements[place]? = some element) :
    ∃ start finish, IsSubtree elements place start finish := by
  have nested := wellNested_of_annotate annotates
  have holds := draft_of_annotate annotates stands
  cases isDraft : element.draft with
  | instruction content => exact ⟨_, _, .instruction (isDraft ▸ holds)⟩
  | branchStart id =>
      rw [isDraft] at holds
      obtain ⟨finish, _, _, isEnd⟩ := nested.exists_end holds
      exact ⟨_, _, .branch ⟨holds, (isEnd finish).mpr rfl⟩ (Or.inl rfl)⟩
  | branchEnd id =>
      rw [isDraft] at holds
      obtain ⟨start, starts⟩ := nested.exists_start holds
      exact ⟨_, _, .branch ⟨starts, holds⟩ (Or.inr rfl)⟩
  | branchNext id =>
      rw [isDraft] at holds
      obtain ⟨first, last, split, rfl⟩ := exists_split_at_place holds
      have isOpen : IsOpenRail (first ++ [.branchNext id]) id first.length 0 :=
        isOpenRail_append_singleton rfl
      have regrouped : first ++ [.branchNext id] ++ last = drafts elements := by
        rw [split, List.append_assoc]
        rfl
      obtain ⟨finish, spans, _⟩ := isOpen.exists_spansRail (regrouped.symm ▸ annotates)
      exact ⟨_, _, .rail holds (regrouped ▸ spans)⟩

/-- The marker that ends a rail does not tell which rail of its branch it has ended. -/
theorem unplacedWithin_of_endsRail {ender : Draft} (ends : ender.EndsRail) (rest : List Draft)
    (frame : OpenFrame) (rail : BranchId) (outer : List OpenFrame) :
    unplacedWithin ({ frame with railId := rail } :: outer) (ender :: rest) =
      unplacedWithin (frame :: outer) (ender :: rest) := by
  cases ender with
  | instruction content => simp [Draft.EndsRail, Draft.kind] at ends
  | branchStart id => simp [Draft.EndsRail, Draft.kind] at ends
  | branchNext id => cases outer <;> rfl
  | branchEnd id => rfl

/--
What belongs to an element leaves open the branches that are open before it, and what is behind
it says of them what it would say without it.
-/
theorem IsSubtree.exists_split {elements : List Element}
    (annotates : annotate (drafts elements) = .ok elements) {place start finish : Nat}
    (subtree : IsSubtree elements place start finish) :
    ∃ first block last, drafts elements = first ++ block ++ last ∧ first.length = start ∧
      first.length + block.length = finish ∧
      (∀ opened, branchesAfter? [] first = some opened →
        branchesAfter? opened block = some opened) ∧
      unplacedWithin (framesAfter [] (first ++ block)) last =
        unplacedWithin (framesAfter [] first) last := by
  have nested := wellNested_of_annotate annotates
  cases subtree with
  | @instruction content stands =>
      obtain ⟨first, last, split, rfl⟩ := exists_split_at_place stands
      refine ⟨first, [.instruction content], last, ?_, rfl, rfl, fun _ _ => rfl, ?_⟩
      · rw [split, List.append_assoc]
        rfl
      · rw [framesAfter_append]
        rfl
  | branch has _ =>
      obtain ⟨first, block, last, split, isBranch, starts, ends⟩ := has.exists_split nested
      refine ⟨first, block, last, split, starts, ends, fun opened _ => isBranch.neutral opened, ?_⟩
      rw [framesAfter_append, isBranch.framesAfter_eq]
  | @rail id _ stands spans =>
      obtain ⟨first, after, opener, ender, inside, split, _, ends, rfl, rfl⟩ := spans
      obtain rfl : opener = .branchNext id := by
        rw [split, getElem?_append_length] at stands
        exact Option.some.inj stands
      refine ⟨first, .branchNext id :: inside.drafts, ender :: after, ?_, rfl, ?_, ?_, ?_⟩
      · rw [split, List.append_assoc]
        rfl
      · rw [List.length_cons, Nat.add_assoc, Nat.add_comm 1]
      · intro opened before
        have closes := nested.closes
        rw [split, branchesAfter?_append, before, Option.bind_some] at closes
        obtain ⟨innermost, outer, rfl, _⟩ := exists_of_branchesAfter?_branchNext closes
        rw [branchesAfter?_branchNext]
        exact inside.branchesAfter?_drafts _
      · rw [split] at annotates
        obtain ⟨frame, outer, current⟩ := List.exists_cons_of_ne_nil
          (framesAfter_ne_nil_of_endsRail (Or.inl rfl) annotates)
        rw [framesAfter_append, current]
        change unplacedWithin (framesAfter ({ frame with railId := id } :: outer) inside.drafts)
          (ender :: after) = _
        rw [inside.framesAfter_drafts]
        exact unplacedWithin_of_endsRail ends after frame id outer

/-- Where what belongs to an element has been taken out, nothing else has changed. -/
theorem IsSubtree.hasRemoved {elements after : List Element}
    (annotates : annotate (drafts elements) = .ok elements) {place start finish : Nat}
    (subtree : IsSubtree elements place start finish)
    (annotatesAfter : annotate ((drafts elements).take start ++ (drafts elements).drop finish) =
      .ok after) : HasRemoved elements after start finish := by
  obtain ⟨first, block, last, split, rfl, rfl, _, sameBehind⟩ := subtree.exists_split annotates
  have front : (drafts elements).take first.length = first := by
    rw [split, List.append_assoc, List.take_left]
  have upTo : (drafts elements).take (first.length + block.length) = first ++ block := by
    rw [split, ← List.length_append, List.take_left]
  have rear : (drafts elements).drop (first.length + block.length) = last := by
    rw [split, ← List.length_append, List.drop_left]
  have removed : drafts ((elements.take (first.length + block.length)).drop first.length) =
      block := by
    have part : drafts ((elements.take (first.length + block.length)).drop first.length) =
        ((drafts elements).take (first.length + block.length)).drop first.length := by
      rw [drafts, List.map_drop, List.map_take]
      rfl
    rw [part, upTo, List.drop_left]
  rw [front, rear] at annotatesAfter
  have distinct := (wellNested_of_annotate annotates).distinct
  rw [split, openedIds_append, openedIds_append] at distinct
  obtain ⟨firstAndBlock, _, lastApart⟩ := List.nodup_append.mp distinct
  obtain ⟨_, _, firstApart⟩ := List.nodup_append.mp firstAndBlock
  constructor
  · have ordered : first.length ≤ first.length + block.length := Nat.le_add_right _ _
    obtain ⟨before, _, behind⟩ := unplaced_parts annotates ordered
    rw [front] at before
    rw [upTo, rear, sameBehind] at behind
    rw [List.map_append, before, behind, unplaced_of_annotate annotatesAfter,
      unplacedWithin_append]
  · intro element member id gone names
    rw [removed] at gone
    rcases List.mem_append.mp
        (openedIds_append first last ▸ mem_openedIds_of_names annotatesAfter member names) with
      inFirst | inLast
    · exact firstApart id inFirst id gone rfl
    · exact lastApart id (List.mem_append_right _ gone) id inLast rfl
  · intro id opened stays
    rw [removed] at stays
    rw [split, openedIds_append, openedIds_append] at opened
    rw [drafts_of_annotate annotatesAfter, openedIds_append]
    rcases List.mem_append.mp opened with upToBlock | inLast
    · exact List.mem_append_left _ ((List.mem_append.mp upToBlock).resolve_right stays)
    · exact List.mem_append_right _ inLast

/-! ### The deletion on a rung -/

namespace Rung

open OpenRung

section Ranges

variable {elements : List Element} {id : BranchId} {place start finish : Nat} {marker : Draft}

theorem bind_startId? (stands : (drafts elements)[place]? = some marker) :
    elements[place]?.bind (startId? ∘ Element.draft) = startId? marker := by
  rw [drafts_getElem?] at stands
  obtain ⟨element, found, rfl⟩ := Option.map_eq_some_iff.mp stands
  rw [found]
  rfl

/-- A handle names the one place where a marker opens its rail. -/
theorem markerOf?_of_opens (nested : WellNested (drafts elements))
    (stands : (drafts elements)[place]? = some marker) (opens : marker.openedRail? = some id) :
    markerOf? elements Draft.openedRail? id = some place := by
  obtain ⟨first, last, split, rfl⟩ := exists_split_at_place stands
  have distinct := nested.distinct
  rw [split, openedIds_append, WalkState.openedIds_cons, opens] at distinct
  have apart := (List.nodup_append.mp distinct).2.2
  exact markerOf?_openedRail split opens fun earlier =>
    apart id earlier id (List.mem_append_left _ (Option.mem_toList.mpr rfl)) rfl

theorem openedRange_of_hasBranch (nested : WellNested (drafts elements))
    (has : HasBranch elements id start finish) :
    openedRange elements id = .ok (start, finish + 1) := by
  unfold openedRange
  rw [markerOf?_of_opens nested has.begins rfl]
  dsimp only
  rw [bind_startId? has.begins, startId?_eq_some.mpr rfl, if_pos (beq_self_eq_true _),
    has.findBranchEnd_eq nested]
  rfl

theorem openedRange_of_spansRail (nested : WellNested (drafts elements))
    (stands : (drafts elements)[place]? = some (.branchNext id))
    (spans : SpansRail (drafts elements) id place finish) :
    openedRange elements id = .ok (place, finish) := by
  unfold openedRange
  rw [markerOf?_of_opens nested stands rfl]
  dsimp only
  rw [bind_startId? stands, spans.findRailEnd_eq]
  rfl

end Ranges

section Deletion

variable {rung : Rung} {nextId place start finish : Nat}

/-- Deleting at a marker is the removal of the branch or rail of its handle. -/
theorem on_deleteElement_of_marker {marker : Draft} {id : BranchId}
    (stands : (drafts rung.elements)[place]? = some marker)
    (isMarker : marker.markerId? = some id) :
    (deleteElement (.ofNat place)).on ⟨rung, nextId⟩ = (removeBranch id).on ⟨rung, nextId⟩ := by
  obtain ⟨element, isDraft, asked⟩ := rung.exists_elementAt stands
  unfold deleteElement
  rw [Action.on_bind_ask, asked]
  dsimp only
  rw [isDraft]
  cases marker with
  | instruction content => cases isMarker
  | branchStart own =>
      cases isMarker
      rfl
  | branchNext own =>
      cases isMarker
      rfl
  | branchEnd own =>
      cases isMarker
      rfl

/-- What belongs to an element is deleted with it, and it is the answer. -/
theorem exists_on_deleteElement (sound : OpenRung.IsSound ⟨rung, nextId⟩)
    (subtree : IsSubtree rung.elements place start finish) :
    ∃ elements,
      annotate ((drafts rung.elements).take start ++ (drafts rung.elements).drop finish) =
        .ok elements ∧
      (deleteElement (.ofNat place)).on ⟨rung, nextId⟩ =
        (.ok ((rung.elements.take finish).drop start),
          ⟨.ofElements elements rung.comment, nextId⟩) := by
  have annotates := sound.rung.annotated
  have remains : ∃ elements, annotate ((drafts rung.elements).take start ++
      (drafts rung.elements).drop finish) = .ok elements := by
    obtain ⟨first, block, last, split, rfl, rfl, neutral, _⟩ := subtree.exists_split annotates
    have nested : WellNested (first ++ block ++ last) := split ▸ sound.wellNested
    rw [split, ← List.length_append, List.drop_left, List.append_assoc, List.take_left]
    exact exists_annotate_iff.mpr (nested.remove neutral)
  cases subtree with
  | instruction stands =>
      obtain ⟨elements, element, annotatesRest, found, takes⟩ := on_takeInstruction sound stands
      have answer : (rung.elements.take (place + 1)).drop place = [element] := by
        obtain ⟨first, last, split, rfl⟩ := exists_split_at_place found
        rw [split, List.take_length_add_append, List.drop_left]
        rfl
      rw [List.eraseIdx_eq_take_drop_succ] at annotatesRest
      exact ⟨elements, annotatesRest, answer ▸ on_deleteElement stands takes⟩
  | branch has isMarker =>
      obtain ⟨elements, annotatesRest⟩ := remains
      refine ⟨elements, annotatesRest, ?_⟩
      rw [← on_removeBranch_of_asked (openedRange_of_hasBranch sound.wellNested has) annotatesRest]
      rcases isMarker with rfl | rfl
      · exact on_deleteElement_of_marker has.begins rfl
      · exact on_deleteElement_of_marker has.ends rfl
  | rail stands spans =>
      obtain ⟨elements, annotatesRest⟩ := remains
      refine ⟨elements, annotatesRest, ?_⟩
      rw [← on_removeBranch_of_asked
        (openedRange_of_spansRail sound.wellNested stands spans) annotatesRest]
      exact on_deleteElement_of_marker stands rfl

end Deletion
end Rung

namespace Drawing

variable {α : Type} [Scalar α] [ExactScalar α]

/-- An element is deleted from a drawing that has it. -/
theorem LaidOut.exists_deleteElement {drawing : Drawing α} (laid : LaidOut drawing)
    {index place : Nat} {rung : Rung} {element : Element}
    (isRung : drawing.routine.rungs[index]? = some rung)
    (stands : rung.elements[place]? = some element) :
    ∃ start finish left final, IsSubtree rung.elements place start finish ∧
      drawing.apply (.deleteElement (.ofNat index) (.ofNat place)) =
        (.ok ((rung.elements.take finish).drop start), final) ∧
      final.routine =
        { drawing.routine with rungs := drawing.routine.rungs.set index left } ∧
      left.comment = rung.comment ∧ HasRemoved rung.elements left.elements start finish := by
  have sound := laid.sound.openRung isRung
  obtain ⟨start, finish, subtree⟩ := exists_isSubtree sound.rung.annotated stands
  obtain ⟨elements, annotates, deletes⟩ := Rung.exists_on_deleteElement sound subtree
  have atomic : Rung.IsAtomic (fun _ => True) (Rung.deleteElement (.ofNat place)) :=
    Rung.deleteElement_isAtomic _
  obtain ⟨final, edits, _, _, routine⟩ :=
    laid.exists_editRung isRung (atomic.edited sound deletes) deletes
  exact ⟨start, finish, _, final, subtree, edits, routine, rfl,
    subtree.hasRemoved sound.rung.annotated annotates⟩

/-- A deletion that succeeds has named a rung and an element of it. -/
theorem LaidOut.exists_of_deleteElement {drawing : Drawing α} (laid : LaidOut drawing)
    {rung position : Address} {removed : List Element} {after : Drawing α}
    (succeeds : drawing.apply (.deleteElement rung position) = (.ok removed, after)) :
    ∃ index place own element, rung = .ofNat index ∧ position = .ofNat place ∧
      drawing.routine.rungs[index]? = some own ∧ own.elements[place]? = some element := by
  have atomic : Rung.IsAtomic (fun _ => True) (Rung.deleteElement position) :=
    Rung.deleteElement_isAtomic _
  have edits : (editRung rung (Rung.deleteElement position)).on drawing = (.ok removed, after) :=
    succeeds
  obtain ⟨index, own, _, rfl, isRung, _, deletes, _⟩ := laid.exists_of_on_editRung atomic edits
  unfold Rung.deleteElement at deletes
  obtain ⟨element, asked, _⟩ := Action.exists_of_on_bind_ask deletes
  obtain ⟨place, rfl, stands⟩ := Rung.elementAt_eq_ok_iff.mp asked
  exact ⟨index, place, own, element, rfl, rfl, isRung, stands⟩

/--
After any run of edits an element is deleted if and only if a rung and a place in it are named
that there are.  What goes, and is the answer in its order, is what belongs to the element: an
instruction alone, the whole branch of a start or end marker, or the rail of a next marker with
all that stands on it.  The other elements keep their order and all that they say of the
branches around them, none of them names a handle that has gone, and no other handle has gone.
-/
theorem deleteElement_exact (config : LayoutConfig α) {routine : Routine}
    (reachable : routine.Reachable) (edits : List Edit) {drawing : Drawing α}
    (isRun : drawing = (ofRoutine config routine).2.run edits) (rung position : Address) :
    ((∃ removed after, drawing.apply (.deleteElement rung position) = (.ok removed, after)) ↔
      ∃ index place own element, rung = .ofNat index ∧ position = .ofNat place ∧
        drawing.routine.rungs[index]? = some own ∧ own.elements[place]? = some element) ∧
    ∀ removed after, drawing.apply (.deleteElement rung position) = (.ok removed, after) →
      ∃ index place own start finish left, rung = .ofNat index ∧ position = .ofNat place ∧
        drawing.routine.rungs[index]? = some own ∧ IsSubtree own.elements place start finish ∧
        removed = (own.elements.take finish).drop start ∧
        after.routine =
          { drawing.routine with rungs := drawing.routine.rungs.set index left } ∧
        left.comment = own.comment ∧ HasRemoved own.elements left.elements start finish := by
  obtain ⟨laid, _⟩ := laidOut_of_isRun reachable isRun
  refine ⟨⟨?_, ?_⟩, ?_⟩
  · rintro ⟨removed, after, succeeds⟩
    exact laid.exists_of_deleteElement succeeds
  · rintro ⟨index, place, own, element, rfl, rfl, isRung, stands⟩
    obtain ⟨_, _, _, final, _, succeeds, _⟩ := laid.exists_deleteElement isRung stands
    exact ⟨_, final, succeeds⟩
  · intro removed after succeeds
    obtain ⟨index, place, own, element, rfl, rfl, isRung, stands⟩ :=
      laid.exists_of_deleteElement succeeds
    obtain ⟨start, finish, left, final, subtree, succeedsToo, routine, comment, hasRemoved⟩ :=
      laid.exists_deleteElement isRung stands
    cases succeeds.symm.trans succeedsToo
    exact ⟨index, place, own, start, finish, left, rfl, rfl, isRung, subtree, rfl, routine,
      comment, hasRemoved⟩

/-- With the further rail of the first sample rung the instruction on it is deleted. -/
theorem deleteElement_exact_of_sample :
    ∃ routine, Routine.ofSource Routine.sampleSource = .ok routine ∧
      ∃ (drawing after : Drawing Rat) (removed : List Element),
        drawing = (ofRoutine .standard routine).2 ∧
        drawing.apply (.deleteElement (.ofNat 0) (.ofNat 2)) = (.ok removed, after) ∧
        removed.length = 2 ∧
        ∃ (index place start finish : Nat) (own left : Rung),
          drawing.routine.rungs[index]? = some own ∧ IsSubtree own.elements place start finish ∧
          HasRemoved own.elements left.elements start finish := by
  have computed : (Routine.ofSource Routine.sampleSource).toOption.map (fun routine =>
      ((ofRoutine (.standard : LayoutConfig Rat) routine).2.apply
        (.deleteElement (.ofNat 0) (.ofNat 2))).1.toOption.map List.length) = some (some 2) := by
    decide +kernel
  obtain ⟨routine, loads, answered⟩ := exists_ok_of_map computed
  obtain ⟨removed, isRemoved, isTwo⟩ := exists_ok_of_map answered
  obtain ⟨after, deletes⟩ : ∃ after, (ofRoutine (.standard : LayoutConfig Rat) routine).2.apply
      (.deleteElement (.ofNat 0) (.ofNat 2)) = (.ok removed, after) :=
    ⟨_, Prod.ext isRemoved rfl⟩
  obtain ⟨index, place, own, start, finish, left, _, _, isRung, subtree, _, _, _, removes⟩ :=
    (deleteElement_exact .standard (.loaded loads) [] rfl _ _).2 removed after deletes
  exact ⟨routine, loads, _, after, removed, rfl, deletes, isTwo, index, place, start, finish,
    own, left, isRung, subtree, removes⟩

end Drawing
end LadderDiagram
