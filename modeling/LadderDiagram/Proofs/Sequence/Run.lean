import LadderDiagram.Proofs.Sequence.Rail

/-!
# What lies between two gaps of a rail

Between two gaps of one rail a sequence holds whole branches and instructions only.  A run
that leaves its rail never comes back to it: the handle of the rail is not used again, and
no other rail behind it has this handle.
-/

namespace LadderDiagram

/-- A marker that ends a rail. -/
def Draft.EndsRail (draft : Draft) : Prop := draft.kind = .branchNext ∨ draft.kind = .branchEnd

/-- A draft that does not end the rail of its run works on the branches of the run only. -/
theorem Draft.turn_of_openAfter? {draft : Draft} {rest : List Draft} {inner : List OpenFrame}
    {depth : Nat} (stays : openAfter? inner.length (draft :: rest) = some depth) :
    (draft.EndsRail → inner ≠ []) ∧ openAfter? (draft.turn inner).length rest = some depth ∧
      ∀ around, draft.turn (inner ++ around) = draft.turn inner ++ around := by
  have within (frame : OpenFrame) (outer : List OpenFrame) :
      draft.EndsRail → frame :: outer ≠ [] := fun _ => List.cons_ne_nil frame outer
  cases draft with
  | instruction content =>
      exact ⟨fun ends => absurd ends (by simp [EndsRail, kind]), stays, fun _ => rfl⟩
  | branchStart id =>
      exact ⟨fun ends => absurd ends (by simp [EndsRail, kind]), stays, fun _ => rfl⟩
  | branchNext id =>
      cases inner with
      | nil => cases stays
      | cons frame outer => exact ⟨within frame outer, stays, fun _ => rfl⟩
  | branchEnd id =>
      cases inner with
      | nil => cases stays
      | cons frame outer => exact ⟨within frame outer, stays, fun _ => rfl⟩

/-- A run that stays on its rail works on the branches that it has opened itself. -/
theorem framesAfter_append_of_openAfter? {run : List Draft} {inner : List OpenFrame}
    {depth : Nat} (stays : openAfter? inner.length run = some depth) (around : List OpenFrame) :
    framesAfter (inner ++ around) run = framesAfter inner run ++ around ∧
      (framesAfter inner run).length = depth := by
  induction run generalizing inner with
  | nil =>
      cases stays
      exact ⟨rfl, rfl⟩
  | cons draft rest ih =>
      obtain ⟨_, staysOn, turns⟩ := Draft.turn_of_openAfter? stays
      obtain ⟨frames, opened⟩ := ih staysOn
      rw [← turns around] at frames
      exact ⟨frames, opened⟩

/-- A run of whole branches and instructions leaves the branches around it open as they are. -/
theorem framesAfter_of_openAfter? {run : List Draft} (whole : openAfter? 0 run = some 0)
    (around : List OpenFrame) : framesAfter around run = around := by
  obtain ⟨kept, none⟩ := @framesAfter_append_of_openAfter? run [] 0 whole around
  rwa [List.eq_nil_of_length_eq_zero none] at kept

/-- A run that does not stay on its rail comes to a marker that ends it. -/
theorem exists_endsRail_of_openAfter? {run : List Draft} {depth : Nat}
    (leaves : openAfter? depth run = none) :
    ∃ before marker after, run = before ++ marker :: after ∧
      openAfter? depth before = some 0 ∧ marker.EndsRail := by
  induction run generalizing depth with
  | nil => cases leaves
  | cons draft rest ih =>
      cases draft with
      | instruction content =>
          obtain ⟨before, marker, after, rfl, stays, ends⟩ := ih leaves
          exact ⟨.instruction content :: before, marker, after, rfl, stays, ends⟩
      | branchStart id =>
          obtain ⟨before, marker, after, rfl, stays, ends⟩ := @ih (depth + 1) leaves
          exact ⟨.branchStart id :: before, marker, after, rfl, stays, ends⟩
      | branchNext id =>
          cases depth with
          | zero => exact ⟨[], .branchNext id, rest, rfl, rfl, Or.inl rfl⟩
          | succ depth =>
              obtain ⟨before, marker, after, rfl, stays, ends⟩ := @ih (depth + 1) leaves
              exact ⟨.branchNext id :: before, marker, after, rfl, stays, ends⟩
      | branchEnd id =>
          cases depth with
          | zero => exact ⟨[], .branchEnd id, rest, rfl, rfl, Or.inr rfl⟩
          | succ depth =>
              obtain ⟨before, marker, after, rfl, stays, ends⟩ := @ih depth leaves
              exact ⟨.branchEnd id :: before, marker, after, rfl, stays, ends⟩

/-- Behind the end of a rail its handle is not that of a current rail. -/
theorem rails_turn_of_endsRail {marker : Draft} (ends : marker.EndsRail) (frame : OpenFrame)
    (outer : List OpenFrame) :
    (rails (marker.turn (frame :: outer))).Sublist (marker.openedRail?.toList ++ rails outer) := by
  rcases marker with content | id | id | id
  · simp [Draft.EndsRail, Draft.kind] at ends
  · simp [Draft.EndsRail, Draft.kind] at ends
  · exact List.Sublist.refl _
  · exact List.Sublist.refl _

section Annotated

variable {elements : List Element} {first run last : List Draft}

/-- A marker that ends a rail stands inside a branch. -/
theorem framesAfter_ne_nil_of_endsRail {marker : Draft} (ends : marker.EndsRail)
    (annotates : annotate (first ++ marker :: last) = .ok elements) :
    framesAfter [] first ≠ [] := by
  obtain ⟨own, others, state, passes, walksOn, _⟩ := WalkState.exists_passes annotates
  obtain ⟨element, next, more, steps, _⟩ := WalkState.exists_of_walk_cons walksOn
  intro outside
  have none : state.frames = [] := passes.frames_eq.trans outside
  rcases marker with content | id | id | id
  · simp [Draft.EndsRail, Draft.kind] at ends
  · simp [Draft.EndsRail, Draft.kind] at ends
  · simp [WalkState.step, none] at steps
  · simp [WalkState.step, none] at steps

/-- Behind what opens some drafts, the handles of other drafts and the current rails are apart. -/
theorem nodup_openedIds_append_rails (annotates : annotate (first ++ run ++ last) = .ok elements) :
    (openedIds run ++ rails (framesAfter [] first)).Nodup := by
  have distinct := (wellNested_of_annotate annotates).distinct
  rw [List.append_assoc, openedIds_append, openedIds_append] at distinct
  obtain ⟨ownDistinct, restDistinct, apart⟩ := List.nodup_append.mp distinct
  have current := rails_framesAfter [] first
  rw [show rails [] = [] from rfl, List.append_nil] at current
  refine List.nodup_append.mpr ⟨(List.nodup_append.mp restDistinct).1, ?_, ?_⟩
  · obtain ⟨own, same, kept⟩ := current
    exact same.nodup_iff.mp (kept.nodup ownDistinct)
  · intro opened inRun rail isCurrent
    exact (apart rail (current.subset isCurrent) opened (List.mem_append_left _ inRun)).symm

theorem mem_rails_of_railAfter {source : List Draft} {id : BranchId}
    (leads : railAfter source = some id) : id ∈ rails (framesAfter [] source) := by
  obtain ⟨frame, innermost, rfl⟩ := Option.map_eq_some_iff.mp leads
  exact List.mem_map_of_mem (List.mem_of_head? innermost)

/-- A run that comes back to the rail on which it has begun has never left it. -/
theorem openAfter?_of_railAfter (annotates : annotate (first ++ run ++ last) = .ok elements)
    (same : railAfter first = railAfter (first ++ run)) : openAfter? 0 run = some 0 := by
  obtain ⟨_, currentDistinct, apart⟩ :=
    List.nodup_append.mp (nodup_openedIds_append_rails annotates)
  cases stays : openAfter? 0 run with
  | some depth =>
      obtain ⟨frames, inside⟩ :=
        @framesAfter_append_of_openAfter? _ [] _ stays (framesAfter [] first)
      cases depth with
      | zero => rfl
      | succ depth =>
          -- A branch of the run is still open, and the current rail would be one of its rails.
          obtain ⟨frame, more, opened⟩ := List.exists_cons_of_length_eq_add_one inside
          have leads : railAfter first = some frame.railId := by
            rw [same, railAfter, framesAfter_append]
            rw [List.nil_append] at frames
            rw [frames, opened]
            rfl
          have inRun : frame.railId ∈ openedIds run := by
            have current := (rails_framesAfter [] run).subset
            rw [opened] at current
            simpa [rails] using current List.mem_cons_self
          exact absurd rfl (apart _ inRun _ (mem_rails_of_railAfter leads))
  | none =>
      -- The rail on which the run begins comes to its end, and its handle is not used again.
      obtain ⟨before, marker, after, rfl, staysBefore, ends⟩ := exists_endsRail_of_openAfter? stays
      have frames := framesAfter_of_openAfter? staysBefore (framesAfter [] first)
      have inside : framesAfter [] (first ++ before) ≠ [] := by
        refine @framesAfter_ne_nil_of_endsRail elements _ (after ++ last) marker ends ?_
        simpa using annotates
      rw [framesAfter_append, frames] at inside
      obtain ⟨frame, outer, current⟩ := List.exists_cons_of_ne_nil inside
      have leads : railAfter (first ++ (before ++ marker :: after)) = some frame.railId := by
        rw [← same, railAfter, current]
        rfl
      have later := mem_rails_of_railAfter leads
      rw [framesAfter_append, framesAfter_append, frames, current] at later
      rw [current] at currentDistinct apart
      have isCurrent : frame.railId ∈ rails (frame :: outer) := List.mem_cons_self
      rcases List.mem_append.mp ((rails_framesAfter _ after).subset later) with inAfter | kept
      · refine absurd rfl (apart _ ?_ _ isCurrent)
        rw [openedIds_append, WalkState.openedIds_cons]
        simp [inAfter]
      · rcases List.mem_append.mp ((rails_turn_of_endsRail ends frame outer).subset kept) with
          atMarker | inOuter
        · refine absurd rfl (apart _ ?_ _ isCurrent)
          rw [openedIds_append, WalkState.openedIds_cons]
          simp [Option.mem_toList.mp atMarker]
        · exact absurd inOuter (List.nodup_cons.mp currentDistinct).1

/-- Between two gaps of one rail there are whole branches and instructions of this rail only. -/
theorem isSelfContainedRun_of_railAtGap {source : List Draft}
    (annotates : annotate source = .ok elements) {start finish : Nat} (ordered : start ≤ finish)
    (within : finish ≤ source.length)
    (same : railAtGap elements start = railAtGap elements finish) :
    isSelfContainedRun elements start finish = true := by
  rw [railAtGap_eq_railAfter annotates (Nat.le_trans ordered within),
    railAtGap_eq_railAfter annotates within] at same
  obtain rfl := drafts_of_annotate annotates
  have upToFinish : (drafts elements).take start ++ ((drafts elements).take finish).drop start =
      (drafts elements).take finish := take_append_drop_take ordered
  have stays : openAfter? 0 (((drafts elements).take finish).drop start) = some 0 := by
    apply @openAfter?_of_railAfter elements _ _ ((drafts elements).drop finish)
    · rw [upToFinish, List.take_append_drop]
      exact annotates
    · rw [upToFinish]
      exact same
  exact isSelfContainedRun_iff.mpr stays

/-- The two checks of a run are one: that of its ends says what that of its markers says. -/
theorem isSelfContainedRun_iff_railAtGap {source : List Draft}
    (annotates : annotate source = .ok elements) {start finish : Nat} (ordered : start ≤ finish)
    (within : finish ≤ source.length) :
    isSelfContainedRun elements start finish = true ↔
      railAtGap elements start = railAtGap elements finish := by
  refine ⟨fun whole => ?_, isSelfContainedRun_of_railAtGap annotates ordered within⟩
  obtain rfl := drafts_of_annotate annotates
  rw [railAtGap_eq_railAfter annotates (Nat.le_trans ordered within),
    railAtGap_eq_railAfter annotates within, ← take_append_drop_take ordered, railAfter,
    railAfter, framesAfter_append, framesAfter_of_openAfter? (isSelfContainedRun_iff.mp whole)]

end Annotated

end LadderDiagram
