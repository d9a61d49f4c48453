import LadderDiagram.Proofs.Rung.Moving

/-!
# Wrapping a run into a branch

A branch is put around a run of elements if the two ends of the run are gaps of the rail that
is named.  Two checks guard this: one counts the markers between the gaps, the other one asks
for the rail of each gap, and on an annotated sequence they say the same.

The branch stands on the rail of its gap.  What was in the run is inside one more branch: what
stood on the rail itself comes to stand on the first rail of the new branch, and what stood on
rails of its own stays there, for no rail inside the run has the handle of the one around it.
-/

namespace LadderDiagram

/-! ### What a branch around a run changes -/

/--
An element of a rail, or of the branches on it, with one more branch between them and what is
around that rail.
-/
def Element.wrappedIn (id : BranchId) (rail : Option BranchId) (element : Element) : Element where
  draft := element.draft
  position := element.position
  branchLevel := element.branchLevel.next
  railId := if element.railId = rail then some id else element.railId
  rootBranchId := if rail = none then some id else element.rootBranchId
  holderId :=
    if element.kind = .instruction ∧ element.holderId = rail then some id else element.holderId

/-- A marker of a branch, without its position. -/
def markerOn (draft : Draft) (level : Address) (rail : Option BranchId) (root : BranchId) :
    Element :=
  ⟨draft, .ofNat 0, level, rail, some root, none⟩

section Wrapped

variable {inner around : List OpenFrame} (id : BranchId)

theorem level_wrapped : Address.ofNat (inner ++ ⟨id, id⟩ :: around).length =
    (Address.ofNat (inner ++ around).length).next := by
  rw [Address.next_ofNat, List.length_append, List.length_append]
  rfl

/-- No rail inside a run is the one around it, so what is on that rail can be told by it. -/
theorem innermostRail_wrapped (apart : ∀ own ∈ rails inner, some own ≠ innermostRail around) :
    innermostRail (inner ++ ⟨id, id⟩ :: around) =
      if innermostRail (inner ++ around) = innermostRail around then some id
      else innermostRail (inner ++ around) := by
  cases inner with
  | nil => exact (if_pos rfl).symm
  | cons frame outer => exact (if_neg (apart frame.railId List.mem_cons_self)).symm

theorem rootId_wrapped : (inner ++ ⟨id, id⟩ :: around).getLast?.map OpenFrame.branchId =
    if innermostRail around = none then some id
    else (inner ++ around).getLast?.map OpenFrame.branchId := by
  cases around with
  | nil => simp [innermostRail]
  | cons frame outer => simp [innermostRail]

end Wrapped

section Run

variable {around : List OpenFrame} (id : BranchId)

/-- The outermost branch of a marker that may be the outermost one itself. -/
theorem rootOfMarker_wrapped (inner : List OpenFrame) (own : BranchId) :
    some (((inner ++ ⟨id, id⟩ :: around).getLast?.map OpenFrame.branchId).getD own) =
      if innermostRail around = none then some id
      else some (((inner ++ around).getLast?.map OpenFrame.branchId).getD own) := by
  rw [rootId_wrapped]
  split <;> rfl

/-- What stands inside a run on its rail is seen with the new branch around it. -/
theorem Draft.unplacedWithin_wrapped {draft : Draft} {inner : List OpenFrame}
    (apart : ∀ own ∈ openedIds [draft] ++ rails inner, some own ≠ innermostRail around)
    (stays : draft.EndsRail → inner ≠ []) :
    draft.unplacedWithin (inner ++ ⟨id, id⟩ :: around) =
      (draft.unplacedWithin (inner ++ around)).wrappedIn id (innermostRail around) := by
  have others : ∀ own ∈ rails inner, some own ≠ innermostRail around := fun own current =>
    apart own (List.mem_append_right _ current)
  have rail := innermostRail_wrapped id others
  have noHolder {kind : ElementKind} (isMarker : kind ≠ .instruction) : (none : Option BranchId) =
      if kind = .instruction ∧ none = innermostRail around then some id else none :=
    (if_neg fun holds => isMarker holds.1).symm
  cases draft with
  | instruction content =>
      exact (Element.mk.injEq ..).mpr ⟨rfl, rfl, level_wrapped id, rail, rootId_wrapped id,
        rail.trans (if_congr (and_iff_right rfl).symm rfl rfl)⟩
  | branchStart own =>
      exact (Element.mk.injEq ..).mpr ⟨rfl, rfl, level_wrapped id, rail,
        rootOfMarker_wrapped id inner own, @noHolder .branchStart (by decide)⟩
  | branchNext own =>
      have opened : some own ≠ innermostRail around := apart own List.mem_cons_self
      exact (Element.mk.injEq ..).mpr ⟨rfl, rfl, level_wrapped id, (if_neg opened).symm,
        rootId_wrapped id, @noHolder .branchNext (by decide)⟩
  | branchEnd own =>
      cases inner with
      | nil => exact absurd rfl (stays (Or.inr rfl))
      | cons frame outer =>
          have rail := @innermostRail_wrapped outer around id fun own current =>
            others own (List.mem_cons_of_mem _ current)
          exact (Element.mk.injEq ..).mpr ⟨rfl, rfl, level_wrapped id, rail,
            rootOfMarker_wrapped id outer own, @noHolder .branchEnd (by decide)⟩

/-- A run that stays on its rail becomes, with a branch around it, the run inside that branch. -/
theorem unplacedWithin_wrapped {run : List Draft} {inner : List OpenFrame} {depth : Nat}
    (stays : openAfter? inner.length run = some depth)
    (apart : ∀ own ∈ openedIds run ++ rails inner, some own ≠ innermostRail around) :
    unplacedWithin (inner ++ ⟨id, id⟩ :: around) run =
      (unplacedWithin (inner ++ around) run).map (Element.wrappedIn id (innermostRail around)) := by
  induction run generalizing inner with
  | nil => rfl
  | cons draft rest ih =>
      obtain ⟨onRail, staysOn, turns⟩ := Draft.turn_of_openAfter? stays
      have here : ∀ own ∈ openedIds [draft] ++ rails inner, some own ≠ innermostRail around := by
        intro own member
        refine apart own ?_
        rw [← List.singleton_append, openedIds_append, List.append_assoc]
        exact (List.Sublist.append_left (List.sublist_append_right _ _) _).subset member
      have later : ∀ own ∈ openedIds rest ++ rails (draft.turn inner),
          some own ≠ innermostRail around := by
        intro own member
        refine apart own ?_
        rw [WalkState.openedIds_cons]
        rcases List.mem_append.mp member with inRest | current
        · exact List.mem_append_left _ (List.mem_append_right _ inRest)
        · rcases List.mem_append.mp ((rails_turn draft inner).subset current) with opened | old
          · exact List.mem_append_left _ (List.mem_append_left _ opened)
          · exact List.mem_append_right _ old
      have others := ih staysOn later
      rw [← turns, ← turns] at others
      rw [unplacedWithin, Draft.unplacedWithin_wrapped id here onRail, others]
      rfl

end Run

/-! ### The sequence with the branch -/

namespace Rung

open OpenRung

/-- Two gaps of one rail, the first of them not behind the second one. -/
structure NamesRun (elements : List Element) (first last : Address) (rail : Option BranchId)
    (start finish : Nat) : Prop where
  first_eq : first = .ofNat start
  last_eq : last = .ofNat finish
  ordered : start ≤ finish
  within : finish ≤ elements.length
  startOnRail : railAtGap elements start = rail
  finishOnRail : railAtGap elements finish = rail

/--
A sequence has come to have a branch around a run of a rail, with a further rail on which
nothing stands.  What is before and behind the run has changed nothing but its positions.
-/
def HasWrapped (before after : List Element) (start finish : Nat) (rail : Option BranchId)
    (id railId : BranchId) : Prop :=
  ∃ root, (rail = none → root = id) ∧
    after.map Element.unplaced =
      (before.take start).map Element.unplaced ++
        markerOn (.branchStart id) (levelAtGap before start) rail root ::
          ((before.take finish).drop start).map (Element.wrappedIn id rail ∘ Element.unplaced) ++
        [markerOn (.branchNext railId) (levelAtGap before start).next (some railId) root,
          markerOn (.branchEnd id) (levelAtGap before start) rail root] ++
        (before.drop finish).map Element.unplaced

section Runs

variable {elements : List Element} {first last : Address} {rail : Option BranchId}
  {start finish : Nat}

/-- The checks of a branch are passed by two gaps of the rail that is named, and by no others. -/
theorem runBetween_eq_ok_iff (annotates : annotate (drafts elements) = .ok elements) :
    runBetween elements first last rail = .ok (start, finish) ↔
      NamesRun elements first last rail start finish := by
  constructor
  · intro asked
    unfold runBetween at asked
    obtain ⟨low, named, _⟩ := exists_of_bind asked
    obtain ⟨rfl, lowWithin⟩ := gapAt_eq_ok_iff.mp named
    rw [named, ok_bind] at asked
    obtain ⟨high, namedToo, _⟩ := exists_of_bind asked
    obtain ⟨rfl, within⟩ := gapAt_eq_ok_iff.mp namedToo
    rw [namedToo, ok_bind] at asked
    by_cases reversed : high < low
    · rw [if_pos reversed] at asked
      cases asked
    rw [if_neg reversed] at asked
    rcases checkRail_cases elements low rail with ⟨error, _, fails⟩ | startOnRail
    · simp [fails] at asked
    rcases checkRail_cases elements high rail with ⟨error, _, fails⟩ | finishOnRail
    · simp [startOnRail, fails] at asked
    by_cases whole : isSelfContainedRun elements low high
    · simp only [startOnRail, finishOnRail, whole, Bool.not_true, Bool.false_eq_true, if_false,
        ok_bind, pure_eq_ok, Except.ok.injEq, Prod.mk.injEq] at asked
      obtain ⟨rfl, rfl⟩ := asked
      exact ⟨rfl, rfl, Nat.le_of_not_lt reversed, within,
        (checkRail_eq_ok_iff annotates lowWithin).mp startOnRail,
        (checkRail_eq_ok_iff annotates within).mp finishOnRail⟩
    · simp [startOnRail, finishOnRail, whole] at asked
  · rintro ⟨rfl, rfl, ordered, within, rfl, finishOnRail⟩
    exact runBetween_railAtGap annotates ordered within finishOnRail.symm

/-- What is said of the elements when a run of whole branches has a branch put around it. -/
theorem exists_unplacedWithin_eq (first last : List Draft) {run : List Draft}
    (id railId : BranchId) (stays : openAfter? 0 run = some 0)
    (apart : ∀ own ∈ openedIds run, some own ≠ innermostRail (framesAfter [] first)) :
    ∃ root, (innermostRail (framesAfter [] first) = none → root = id) ∧
      unplacedWithin [] (first ++ .branchStart id :: run ++ [.branchNext railId, .branchEnd id] ++
          last) =
        unplacedWithin [] first ++
          markerOn (.branchStart id) (.ofNat (framesAfter [] first).length)
              (innermostRail (framesAfter [] first)) root ::
            (unplacedWithin (framesAfter [] first) run).map
              (Element.wrappedIn id (innermostRail (framesAfter [] first))) ++
          [markerOn (.branchNext railId) (Address.ofNat (framesAfter [] first).length).next
              (some railId) root,
            markerOn (.branchEnd id) (.ofNat (framesAfter [] first).length)
              (innermostRail (framesAfter [] first)) root] ++
          unplacedWithin (framesAfter [] first) last := by
  generalize around_eq : framesAfter [] first = around at *
  refine ⟨(around.getLast?.map OpenFrame.branchId).getD id, ?_, ?_⟩
  · cases around with
    | nil => exact fun _ => rfl
    | cons frame outer =>
        intro isMain
        cases isMain
  have keeps := framesAfter_of_openAfter? stays
  have opened : framesAfter around (.branchStart id :: run) = ⟨id, id⟩ :: around := keeps _
  have inside : unplacedWithin around (.branchStart id :: run) =
      markerOn (.branchStart id) (.ofNat around.length) (innermostRail around)
          ((around.getLast?.map OpenFrame.branchId).getD id) ::
        (unplacedWithin around run).map (Element.wrappedIn id (innermostRail around)) :=
    congrArg (List.cons _)
      (@unplacedWithin_wrapped around id run [] 0 stays (by simpa [rails] using apart))
  have closing : unplacedWithin (⟨id, id⟩ :: around) [.branchNext railId, .branchEnd id] =
      [markerOn (.branchNext railId) (Address.ofNat around.length).next (some railId)
          ((around.getLast?.map OpenFrame.branchId).getD id),
        markerOn (.branchEnd id) (.ofNat around.length) (innermostRail around)
          ((around.getLast?.map OpenFrame.branchId).getD id)] := by
    cases around with
    | nil => rfl
    | cons frame outer => rfl
  rw [unplacedWithin_append, unplacedWithin_append, unplacedWithin_append, framesAfter_append,
    framesAfter_append, framesAfter_append, around_eq, opened, inside, closing]
  rfl

/-- On annotated sequences the drafts with a branch around a run are those with it in them. -/
theorem hasWrapped_of_annotate {before after : List Element} {id railId : BranchId}
    (annotates : annotate (drafts before) = .ok before) (ordered : start ≤ finish)
    (within : finish ≤ before.length)
    (same : railAtGap before start = railAtGap before finish)
    (annotatesAfter : annotate (wrapped (drafts before) start finish id railId) = .ok after) :
    HasWrapped before after start finish (railAtGap before start) id railId := by
  have sourceWithin : finish ≤ (drafts before).length := by rwa [length_drafts]
  obtain ⟨rail, level⟩ := railAtGap_and_levelAtGap annotates (Nat.le_trans ordered sourceWithin)
  have stays : openAfter? 0 (((drafts before).take finish).drop start) = some 0 :=
    isSelfContainedRun_iff.mp (isSelfContainedRun_of_railAtGap annotates ordered sourceWithin same)
  have split : (drafts before).take start ++ ((drafts before).take finish).drop start =
      (drafts before).take finish := take_append_drop_take ordered
  have keeps := framesAfter_of_openAfter? stays (framesAfter [] ((drafts before).take start))
  have apart := @nodup_openedIds_append_rails before ((drafts before).take start)
    (((drafts before).take finish).drop start) ((drafts before).drop finish)
    (by rw [split, List.take_append_drop]; exact annotates)
  obtain ⟨front, middle, rear⟩ := unplaced_parts annotates ordered
  rw [← split, framesAfter_append, keeps] at rear
  obtain ⟨root, isRoot, sequence⟩ := exists_unplacedWithin_eq ((drafts before).take start)
    ((drafts before).drop finish) id railId stays (fun own opened isRail =>
        (List.nodup_append.mp apart).2.2 own opened own (mem_rails_of_railAfter isRail.symm) rfl)
  rw [HasWrapped, rail, level, List.map_map.symm, front, middle, rear,
    unplaced_of_annotate annotatesAfter]
  exact ⟨root, isRoot, sequence⟩

end Runs

section Wrapping

variable {rung : Rung} {nextId : Nat} {first last : Address} {rail : Option BranchId}

/-- Two gaps of a rail get a branch around what is between them. -/
theorem exists_on_insertBranch (sound : OpenRung.IsSound ⟨rung, nextId⟩) {start finish : Nat}
    (names : NamesRun rung.elements first last rail start finish) :
    ∃ after : Rung, (insertBranch first last rail).on ⟨rung, nextId⟩ =
        (.ok (.ofNat nextId), ⟨after, nextId + 2⟩) ∧ after.comment = rung.comment ∧
      HasWrapped rung.elements after.elements start finish rail (.ofNat nextId)
        (.ofNat (nextId + 1)) := by
  obtain ⟨rfl, rfl, ordered, within, rfl, finishOnRail⟩ := names
  obtain ⟨elements, _, annotates, _, _, _, succeeds⟩ :=
    on_insertBranch_railAtGap sound ordered within finishOnRail.symm
  exact ⟨_, succeeds, rfl, hasWrapped_of_annotate sound.rung.annotated ordered within
    finishOnRail.symm annotates⟩

theorem exists_of_on_insertBranch (sound : OpenRung.IsSound ⟨rung, nextId⟩) {answer : BranchId}
    {after : OpenRung}
    (succeeds : (insertBranch first last rail).on ⟨rung, nextId⟩ = (.ok answer, after)) :
    ∃ start finish, NamesRun rung.elements first last rail start finish := by
  unfold insertBranch at succeeds
  obtain ⟨found, asked, _⟩ := Action.exists_of_on_bind_ask succeeds
  exact ⟨found.1, found.2, (runBetween_eq_ok_iff sound.rung.annotated).mp asked⟩

end Wrapping

/--
On an annotated sequence the elements between two gaps are whole branches and instructions of
one rail exactly if the two gaps lie on one rail.  So a rung of a reachable routine gets a
branch exactly if two such gaps are named with that rail.  The branch has the next two handles,
it has what was between the gaps on its first rail and nothing on its further one, and all that
is outside the two gaps stays as it was.
-/
theorem insertBranch_exact {routine : Routine} (reachable : routine.Reachable) {rung : Rung}
    (isRung : rung ∈ routine.rungs) (first last : Address) (rail : Option BranchId) :
    (∀ source elements, annotate source = .ok elements →
      ∀ start finish, start ≤ finish → finish ≤ elements.length →
        (isSelfContainedRun elements start finish = true ↔
          railAtGap elements start = railAtGap elements finish)) ∧
    ((∃ answer after,
        (insertBranch first last rail).on ⟨rung, routine.nextId⟩ = (.ok answer, after)) ↔
      ∃ start finish, NamesRun rung.elements first last rail start finish) ∧
    ∀ answer after,
      (insertBranch first last rail).on ⟨rung, routine.nextId⟩ = (.ok answer, after) →
        ∃ start finish railId, NamesRun rung.elements first last rail start finish ∧
          answer = .ofNat routine.nextId ∧ railId = .ofNat (routine.nextId + 1) ∧
          after.nextId = routine.nextId + 2 ∧
          answer ∉ routine.handles ∧ railId ∉ routine.handles ∧
          after.rung.comment = rung.comment ∧
          HasWrapped rung.elements after.rung.elements start finish rail answer railId := by
  obtain ⟨index, stands⟩ := List.getElem?_of_mem isRung
  have sound := reachable.isSound.openRung stands
  have free {value : Nat} (notGiven : routine.nextId ≤ value) :
      .ofNat value ∉ routine.handles := fun member =>
    (reachable.isSound.given _ member).ne (.ofNat notGiven (Nat.lt_succ_self value)) rfl
  refine ⟨?_, ⟨?_, ?_⟩, ?_⟩
  · intro source elements annotates start finish ordered within
    rw [← length_drafts, drafts_of_annotate annotates] at within
    exact isSelfContainedRun_iff_railAtGap annotates ordered within
  · rintro ⟨answer, after, succeeds⟩
    exact exists_of_on_insertBranch sound succeeds
  · rintro ⟨start, finish, names⟩
    obtain ⟨after, succeeds, _⟩ := exists_on_insertBranch sound names
    exact ⟨_, _, succeeds⟩
  · intro answer after succeeds
    obtain ⟨start, finish, names⟩ := exists_of_on_insertBranch sound succeeds
    obtain ⟨final, succeedsToo, comment, hasWrapped⟩ := exists_on_insertBranch sound names
    cases succeeds.symm.trans succeedsToo
    exact ⟨start, finish, _, names, rfl, rfl, rfl, free (Nat.le_refl _), free (Nat.le_succ _),
      comment, hasWrapped⟩

/-- The branch of the first sample rung gets another one around it. -/
theorem insertBranch_exact_of_sample :
    ∃ routine rung after start finish railId,
      Routine.ofSource Routine.sampleSource = .ok routine ∧ rung ∈ routine.rungs ∧
      (insertBranch (.ofNat 0) (.ofNat 5) none).on ⟨rung, routine.nextId⟩ =
        (.ok (.ofNat 2), after) ∧
      HasWrapped rung.elements after.rung.elements start finish none (.ofNat 2) railId := by
  have computed : (Routine.ofSource Routine.sampleSource).toOption.map (fun routine =>
      routine.rungs.head?.map fun rung =>
        ((insertBranch (.ofNat 0) (.ofNat 5) none).on ⟨rung, routine.nextId⟩).1.toOption) =
          some (some (some (.ofNat 2))) := by
    decide +kernel
  obtain ⟨routine, loads, inserted⟩ := exists_ok_of_map computed
  obtain ⟨rung, isFirst, answered⟩ := Option.map_eq_some_iff.mp inserted
  have isRung := List.mem_of_head? isFirst
  obtain ⟨after, inserts⟩ : ∃ after,
      (insertBranch (.ofNat 0) (.ofNat 5) none).on ⟨rung, routine.nextId⟩ =
        (.ok (.ofNat 2), after) :=
    ⟨_, Prod.ext (toOption_eq_some_iff.mp answered) rfl⟩
  obtain ⟨start, finish, railId, _, _, _, _, _, _, _, hasWrapped⟩ :=
    (insertBranch_exact (.loaded loads) isRung (.ofNat 0) (.ofNat 5) none).2.2 _ after inserts
  exact ⟨routine, rung, after, start, finish, railId, loads, isRung, inserts, hasWrapped⟩

end Rung
end LadderDiagram
