import LadderDiagram.Proofs.Rung.Placement

/-!
# Edits that undo others

An instruction that has been put into a sound rung is the one that stands at the position it
was put to, and a rail that has just been opened holds nothing.  So deleting what stands there,
or removing the rail by its handle, takes out exactly the draft that was put in, and annotation
makes of the old drafts what the rung was before.  Only the handle of the rail stays taken.
-/

namespace LadderDiagram
namespace Rung

open OpenRung

/--
Where an edit succeeds on a sound rung, another one that may depend on its answer succeeds
after it and leaves the rung as it was.
-/
def IsUndoneBy {β γ : Type} (edit : Action OpenRung β) (undo : β → Action OpenRung γ) : Prop :=
  ∀ (before after : OpenRung) (answer : β), before.IsSound →
    edit.on before = (.ok answer, after) →
      ∃ removed, (undo answer).on after = (.ok removed, ⟨before.rung, after.nextId⟩)

/-- What is made of the drafts of a sound rung is the rung. -/
theorem IsSound.eq_of_annotate {rung : Rung} (sound : rung.IsSound) {elements : List Element}
    (annotates : annotate (drafts rung.elements) = .ok elements) :
    Rung.ofElements elements rung.comment = rung := by
  obtain rfl := Except.ok.inj (sound.annotated.symm.trans annotates)
  exact sound.restored_eq

/-! ### Instructions -/

/-- What stands at the place of an instruction is deleted by taking the instruction out. -/
theorem on_deleteElement {rung : Rung} {nextId place : Nat} {content : Instruction}
    (stands : (drafts rung.elements)[place]? = some (.instruction content)) {element : Element}
    {after : OpenRung}
    (takes : (takeInstruction (.ofNat place)).on ⟨rung, nextId⟩ = (.ok (element, content), after)) :
    (deleteElement (.ofNat place)).on ⟨rung, nextId⟩ = (.ok [element], after) := by
  obtain ⟨own, isInstruction, asked⟩ := rung.exists_elementAt stands
  unfold deleteElement
  rw [Action.on_bind_ask, asked]
  dsimp only
  rw [isInstruction]
  dsimp only
  rw [Action.on_map, removeInstruction, Action.on_map, takes]
  rfl

theorem insertInstruction_isUndoneBy (position : Address) (rail : Option BranchId)
    (content : Instruction) :
    IsUndoneBy (insertInstruction position rail content) fun _ => deleteElement position := by
  intro before after answer sound succeeds
  have atomic : IsAtomic (fun _ => True) (insertInstruction position rail content) :=
    insertInstruction_isAtomic position rail trivial
  have edited := atomic.edited sound succeeds
  rcases insertInstruction_cases sound position rail content with
    ⟨error, _, fails⟩ | ⟨gap, elements, element, rfl, bounded, annotates, _, inserts⟩
  · rw [succeeds] at fails
    cases fails
  rw [succeeds] at inserts
  cases inserts
  have source := drafts_of_annotate annotates
  have stands : (drafts elements)[gap]? = some (.instruction content) := by
    rw [source]
    exact List.getElem?_insertIdx_self.trans (if_pos bounded)
  obtain ⟨old, taken, annotatesOld, _, takes⟩ := on_takeInstruction edited.sound stands
  have sameDrafts : (drafts elements).eraseIdx gap = drafts before.rung.elements := by
    rw [source]
    exact List.eraseIdx_insertIdx_self _
  have sameRung : ofElements old before.rung.comment = before.rung :=
    sound.rung.eq_of_annotate (sameDrafts ▸ annotatesOld)
  refine ⟨[taken], ?_⟩
  rw [on_deleteElement stands takes]
  exact congrArg (fun rung => (Except.ok [taken], OpenRung.mk rung before.nextId)) sameRung

/-! ### Rails -/

/-- Where the search for the end of a rail ends, no draft of the rail is left. -/
theorem railLength?_drop {source : List Draft} {depth length : Nat}
    (ends : railLength? depth source = some length) :
    railLength? 0 (source.drop length) = some 0 := by
  induction source generalizing depth length with
  | nil => cases ends
  | cons draft rest ih =>
      cases draft with
      | instruction content =>
          obtain ⟨before, endsLater, rfl⟩ := Option.map_eq_some_iff.mp ends
          exact ih endsLater
      | branchStart id =>
          obtain ⟨before, endsLater, rfl⟩ := Option.map_eq_some_iff.mp ends
          exact ih endsLater
      | branchNext id =>
          cases depth with
          | zero =>
              cases ends
              rfl
          | succ depth =>
              obtain ⟨before, endsLater, rfl⟩ := Option.map_eq_some_iff.mp ends
              exact ih endsLater
      | branchEnd id =>
          cases depth with
          | zero =>
              cases ends
              rfl
          | succ depth =>
              obtain ⟨before, endsLater, rfl⟩ := Option.map_eq_some_iff.mp ends
              exact ih endsLater

/-- Behind the rail that a marker opens another rail begins or the branch ends. -/
theorem railLength?_of_openedRailEnd {rung : Rung} {position : Address} {finish : Nat}
    (asked : rung.openedRailEnd position = .ok finish) :
    railLength? 0 ((drafts rung.elements).drop finish) = some 0 := by
  unfold openedRailEnd at asked
  obtain ⟨⟨place, marker⟩, _, finds⟩ := exists_of_bind asked
  dsimp only at finds
  split at finds
  next => cases finds
  next =>
    rw [findRailEnd, railEndFrom] at finds
    cases ends : railLength? 0 (drafts (rung.elements.drop (place + 1))) with
    | none =>
        rw [ends] at finds
        cases finds
    | some length =>
        rw [ends] at finds
        cases finds
        have dropped := railLength?_drop ends
        rw [drafts, List.map_drop, List.drop_drop] at dropped
        exact dropped

/-- The marker of a rail is found by the handle of the rail, if it is the first one with it. -/
theorem markerOf?_openedRail {elements : List Element} {first last : List Draft} {marker : Draft}
    {id : BranchId} (split : drafts elements = first ++ marker :: last)
    (opens : marker.openedRail? = some id) (free : id ∉ openedIds first) :
    markerOf? elements Draft.openedRail? id = some first.length := by
  have finds : (drafts elements).findIdx? (fun draft => draft.openedRail? == some id) =
      some first.length := by
    rw [split, List.findIdx?_append, List.findIdx?_eq_none_iff.mpr, List.findIdx?_cons]
    · simp [opens]
    · intro draft member
      refine beq_eq_false_iff_ne.mpr fun same => free ?_
      exact List.mem_filterMap.mpr ⟨draft, member, same⟩
  rw [drafts, List.findIdx?_map] at finds
  exact finds

/-- What a handle names for removal is taken out of the drafts, and it is the answer. -/
theorem on_removeBranch_of_asked {rung : Rung} {nextId start finish : Nat} {id : BranchId}
    (asked : openedRange rung.elements id = .ok (start, finish)) {elements : List Element}
    (annotates : annotate ((drafts rung.elements).take start ++
      (drafts rung.elements).drop finish) = .ok elements) :
    (removeBranch id).on ⟨rung, nextId⟩ = (.ok ((rung.elements.take finish).drop start),
      ⟨.ofElements elements rung.comment, nextId⟩) := by
  unfold removeBranch
  rw [Action.on_bind_ask, elements_mk, asked]
  dsimp only
  rw [Action.on_bind, Action.on_get]
  dsimp only
  rw [elements_mk, Action.on_bind, commit, Action.on_bind, Action.on_settled, annotates]
  rfl

/-- A rail on which nothing stands is removed by taking its marker out. -/
theorem on_removeBranch_of_emptyRail {rung : Rung} {nextId : Nat} {first last : List Draft}
    {id : BranchId} (split : drafts rung.elements = first ++ .branchNext id :: last)
    (free : id ∉ openedIds first) (isEmpty : railLength? 0 last = some 0) {elements : List Element}
    (annotates : annotate (first ++ last) = .ok elements) :
    ∃ removed, (removeBranch id).on ⟨rung, nextId⟩ =
      (.ok removed, ⟨.ofElements elements rung.comment, nextId⟩) := by
  have isMarker : rung.elements[first.length]?.bind (startId? ∘ Element.draft) = none := by
    have stands := getElem?_append_length first last (.branchNext id)
    rw [← split, drafts_getElem?] at stands
    obtain ⟨element, found, isNext⟩ := Option.map_eq_some_iff.mp stands
    rw [found, Option.bind_some, Function.comp, isNext]
    rfl
  have ends : findRailEnd rung.elements first.length = .ok (first.length + 1) := by
    rw [findRailEnd, railEndFrom, drafts_drop_of_eq_append split, isEmpty]
  have asked : openedRange rung.elements id = .ok (first.length, first.length + 1) := by
    rw [openedRange, markerOf?_openedRail split rfl free]
    dsimp only
    rw [isMarker, ends]
    rfl
  have remaining : (drafts rung.elements).take first.length ++
      (drafts rung.elements).drop (first.length + 1) = first ++ last := by
    rw [split, List.take_left, ← List.drop_drop, List.drop_left]
    rfl
  exact ⟨_, on_removeBranch_of_asked asked (remaining ▸ annotates)⟩

theorem insertBranchLevel_isUndoneBy (position : Address) :
    IsUndoneBy (insertBranchLevel position) removeBranch := by
  intro before after id sound succeeds
  cases asked : before.rung.openedRailEnd position with
  | error error =>
      unfold insertBranchLevel at succeeds
      rw [Action.on_bind_ask, asked] at succeeds
      cases succeeds
  | ok finish =>
      obtain ⟨within, elements, annotates, opens⟩ := on_insertBranchLevel sound asked
      rw [succeeds] at opens
      cases opens
      have isEmpty := railLength?_of_openedRailEnd asked
      have free := sound.not_mem_openedIds (Nat.le_refl before.nextId)
      have source : drafts elements = _ := drafts_of_annotate annotates
      obtain ⟨first, last, split, rfl⟩ := exists_split_at_gap within
      have split : drafts before.rung.elements = first ++ last := split
      rw [show drafts before.elements = first ++ last from split, openedIds_append] at free
      rw [show drafts before.elements = first ++ last from split, insertIdx_append_length] at source
      rw [split, List.drop_left] at isEmpty
      obtain ⟨removed, removes⟩ := @on_removeBranch_of_emptyRail
        (ofElements elements before.rung.comment) (before.nextId + 1) first last _ source
        (fun old => free (List.mem_append_left _ old)) isEmpty _ (split ▸ sound.rung.annotated)
      refine ⟨removed, removes.trans ?_⟩
      exact congrArg (fun rung => (Except.ok removed, OpenRung.mk rung (before.nextId + 1)))
        sound.rung.restored_eq

end Rung
end LadderDiagram
