import LadderDiagram.Proofs.Drawing.Commuting
import LadderDiagram.Proofs.Drawing.Queue

/-!
# The report of an edit

Each edit marks the rungs that it has changed, and an edit that adds or removes a rung marks
all from there on.  It is followed by a pass that is told about the marked rungs, and what the
pass reports is what has come up in its queue.  All that the edit has not marked is as it was
when the pass begins, so a rung with another layout than before has been marked or has come up
because the rung above it has slid.
-/

namespace LadderDiagram

/-- The numbers of the rungs from one on. -/
def rungsFrom (first : Address) (count : Nat) : List Nat :=
  match first.toNat? with
  | some first => List.range' first (count - first)
  | none => []

theorem mem_rungsFrom {first count number : Nat} :
    number ∈ rungsFrom (.ofNat first) count ↔ first ≤ number ∧ number < count := by
  change number ∈ List.range' first (count - first) ↔ _
  rw [List.mem_range'_1]
  omega

/-- The rungs that an edit marks, by their numbers after it, if there are `count` rungs then. -/
def Edit.marked (count : Nat) (edit : Edit) : List Nat :=
  match edit with
  | .moveElement source target => [source.rung, target.rung].filterMap Address.toNat?
  | .addRung _ place => rungsFrom (place.getD (.ofNat (count - 1))) count
  | .removeRung rung => rungsFrom rung count
  | edit => edit.rung?.toList.filterMap Address.toNat?

namespace Drawing

variable {α : Type} [Scalar α] {between after : Drawing α} {index : Nat}

/-! ### Reports -/

/-- A rung has come to begin elsewhere, or to be of another height. -/
def ChangesBand (before after : Drawing α) (index : Nat) : Prop :=
  ∃ old new, before.bands[index]? = some (some old) ∧ after.bands[index]? = some (some new) ∧
    (Scalar.eq new.y old.y = false ∨ Scalar.eq new.height old.height = false)

/--
What an edit has done when its pass begins: the routine is the new one already, and what is kept
of the rungs that are not marked is what was kept of them before.
-/
structure Prepares (marked : List Nat) (before between after : Drawing α) : Prop where
  routine_eq : between.routine = after.routine
  config_eq : between.config = before.config
  kept : ∀ number < after.routine.size, number ∉ marked →
    between.layouts[number]? = before.layouts[number]? ∧
      between.bands[number]? = before.bands[number]?

/--
The pass of an edit is the run of a queue that begins with the marked rungs, and its report
lists what has come up: nothing twice, everything that has changed, and besides the marked rungs
only those below a rung that takes another band.
-/
structure Reports (marked : List Nat) (before after : Drawing α) : Prop where
  queue : ∃ between final, Prepares marked before between after ∧
    Drains (pendingOf after.routine.size marked) between after.relaid final ∧
      after = { final with relaid := after.relaid } ∧
      ∀ numbers other, Drains (pendingOf after.routine.size marked) between numbers other →
        numbers = after.relaid
  ascending : after.relaid.Pairwise (· < ·)
  bounded : ∀ number ∈ after.relaid, number < after.routine.size
  complete : ∀ number < after.routine.size,
    after.layouts[number]? ≠ before.layouts[number]? → number ∈ after.relaid
  caused : ∀ number ∈ after.relaid, number ∉ marked →
    ∃ above ∈ after.relaid, number = above + 1 ∧ ChangesBand before after above

theorem HasSlid.changesBand {before : Drawing α} (laid : before.LaidOut)
    (inside : index < before.routine.size) (slid : HasSlid before after index) :
    ChangesBand before after index := by
  obtain ⟨rung, layout, draws⟩ := laid.exists_draws inside
  obtain ⟨new, kept, moved⟩ := slid
  refine ⟨_, new, draws.band, kept, ?_⟩
  rw [draws.band, Option.join_some, hasMoved, Option.any_some, Bool.not_eq_true',
    Bool.and_eq_false_iff] at moved
  exact moved

/-- A pass that is told about the marked rungs reports as it should. -/
theorem reports_of_relay {before : Drawing α} {dirty : Nat → Bool} {marked : List Nat}
    (laid : before.LaidOut) (relays : (relay dirty).on between = (.ok (), after))
    (sameConfig : between.config = before.config)
    (kept : ∀ number < between.routine.size, number ∉ marked →
      number < between.layouts.length ∧ between.layouts[number]? = before.layouts[number]? ∧
        between.bands[number]? = before.bands[number]?)
    (fits : between.layouts.length ≤ between.routine.size)
    (bandsLength : between.bands.length = between.routine.size)
    (tells : ∀ number < between.routine.size, dirty number = true ↔ number ∈ marked)
    (onward : between.routine.size = before.routine.size ∧ between.bands = before.bands ∨
      ∃ first, ∀ number, number ∈ marked ↔ first ≤ number ∧ number < between.routine.size) :
    Reports marked before after := by
  obtain ⟨final, drains, same⟩ := drains_of_relay fits tells relays
  have awaits : Awaits (pendingOf between.routine.size marked) between := by
    refine ⟨pendingOf_ascending _ _, fun number waits => (mem_pendingOf.mp waits).2,
      fun number inside absent => ?_, bandsLength⟩
    exact (kept number inside fun isMarked => absent (mem_pendingOf.mpr ⟨isMarked, inside⟩)).1
  have processed := drains.processed awaits
  have sameRoutine : after.routine = between.routine := same ▸ processed.routine_eq
  have layouts : after.layouts = final.layouts := same ▸ rfl
  have bands : after.bands = final.bands := same ▸ rfl
  have listed {number : Nat} (inside : number < between.routine.size) (isMarked : number ∈ marked) :
      number ∈ after.relaid := processed.all (mem_pendingOf.mpr ⟨isMarked, inside⟩)
  refine ⟨⟨between, final, ⟨sameRoutine.symm, sameConfig, ?_⟩, sameRoutine ▸ drains, same, ?_⟩,
    processed.ascending, ?_, ?_, ?_⟩
  · rw [sameRoutine]
    exact fun number inside absent => (kept number inside absent).2
  · rw [sameRoutine]
    exact fun numbers other drainsToo => (drains.unique drainsToo).1
  · rw [sameRoutine]
    exact processed.bounded
  · rw [sameRoutine]
    intro number inside differs
    by_contra absent
    have unmarked : number ∉ marked := fun isMarked => absent (listed inside isMarked)
    exact differs (layouts ▸ (processed.layouts_eq number absent).trans
      (kept number inside unmarked).2.1)
  · intro number member unmarked
    have inside := processed.bounded number member
    rcases onward with ⟨sameSize, sameBands⟩ | ⟨first, fromFirst⟩
    · obtain ⟨above, isAbove, next, slid⟩ := processed.caused number member fun waits =>
        unmarked (mem_pendingOf.mp waits).1
      refine ⟨above, isAbove, next, HasSlid.changesBand laid ?_ ?_⟩
      · exact sameSize ▸ processed.bounded above isAbove
      · unfold HasSlid at slid ⊢
        rw [bands, ← sameBands]
        exact slid
    · -- All rungs from the first marked one on are marked, and the queue begins with it.
      refine absurd ((fromFirst number).mpr ⟨?_, inside⟩) unmarked
      exact processed.above first (fun other waits =>
        ((fromFirst other).mp (mem_pendingOf.mp waits).1).1) number member

/-- A pass from some rung on reports as it should if all rungs from there on are marked. -/
theorem reports_of_relay_from {before : Drawing α} {index : Nat} {marked : List Nat}
    (laid : before.LaidOut) (relays : (relay (index ≤ ·)).on between = (.ok (), after))
    (sameConfig : between.config = before.config)
    (marks : ∀ number, number ∈ marked ↔ index ≤ number ∧ number < between.routine.size)
    (kept : ∀ number < between.routine.size, number < index →
      number < between.layouts.length ∧ between.layouts[number]? = before.layouts[number]? ∧
        between.bands[number]? = before.bands[number]?)
    (fits : between.layouts.length ≤ between.routine.size)
    (bandsLength : between.bands.length = between.routine.size) :
    Reports marked before after := by
  refine reports_of_relay laid relays sameConfig ?_ fits bandsLength ?_ (Or.inr ⟨index, marks⟩)
  · intro number inside unmarked
    refine kept number inside (Nat.lt_of_not_le fun least => unmarked ?_)
    exact (marks number).mpr ⟨least, inside⟩
  · intro number inside
    rw [marks, decide_eq_true_iff]
    exact (and_iff_left inside).symm

/-! ### Edits -/

section Edits

variable {before : Drawing α} {β : Type} {answer : β}

/-- A pass over rungs that have been edited on a drawing that is laid out reports as it should. -/
theorem LaidOut.reports_of_edited (laid : before.LaidOut) {routine : Routine}
    (sameSize : routine.size = before.routine.size) {dirty : Nat → Bool} {marked : List Nat}
    (tells : ∀ number, dirty number = true ↔ number ∈ marked)
    (relays : (relay dirty).on { before with routine := routine } = (.ok (), after)) :
    Reports marked before after := by
  have layouts : before.layouts.length = routine.size := laid.length_layouts.trans sameSize.symm
  refine reports_of_relay laid relays rfl (fun number inside _ => ⟨?_, rfl, rfl⟩) layouts.le ?_
    (fun number _ => tells number) (Or.inl ⟨sameSize, rfl⟩)
  · exact Nat.lt_of_lt_of_le inside layouts.ge
  · exact laid.bands_length.trans sameSize.symm

theorem LaidOut.reports_editRung (laid : before.LaidOut) {own : Instruction → Prop}
    {edit : Action OpenRung β} (atomic : Rung.IsAtomic own edit) {address : Address}
    {marked : List Nat}
    (marks : ∀ index, address = .ofNat index → ∀ number, number ∈ marked ↔ number = index)
    (succeeds : (editRung address edit).on before = (.ok answer, after)) :
    Reports marked before after := by
  unfold editRung at succeeds
  obtain ⟨⟨index, rung⟩, found, succeeds⟩ := Action.exists_of_on_bind_ask succeeds
  obtain ⟨given, between, edits, succeeds⟩ := Action.exists_of_on_bind succeeds
  obtain ⟨_, final, relays, answers⟩ := Action.exists_of_on_bind succeeds
  cases answers
  have relays := Action.on_of_on_undoing relays
  obtain ⟨isIndex, _⟩ := Routine.rungAt_eq_ok_iff.mp found
  obtain ⟨_, edited, rfl⟩ := exists_of_on_onRoutine edits
  obtain ⟨other, _, state, _, _, _, _, rfl⟩ :=
    Routine.exists_of_on_editRung atomic laid.sound edited
  have sameSize : (before.routine.withRung other state).size = before.routine.size :=
    List.length_set
  exact laid.reports_of_edited sameSize
    (fun number => beq_iff_eq.trans (marks index isIndex number).symm) relays

theorem LaidOut.reports_moveAcross (laid : before.LaidOut) {source : ElementAddress}
    {target : DropTarget} {element : Element}
    (succeeds : (moveAcross source target).on before = (.ok element, after)) :
    Reports ([source.rung, target.rung].filterMap Address.toNat?) before after := by
  unfold moveAcross at succeeds
  obtain ⟨⟨origin, giver⟩, found, succeeds⟩ := Action.exists_of_on_bind_ask succeeds
  obtain ⟨⟨goal, taker⟩, foundToo, succeeds⟩ := Action.exists_of_on_bind_ask succeeds
  have succeeds := Action.on_of_on_undoing succeeds
  obtain ⟨moved, between, carries, succeeds⟩ := Action.exists_of_on_bind succeeds
  obtain ⟨_, final, relays, answers⟩ := Action.exists_of_on_bind succeeds
  cases answers
  obtain ⟨isOrigin, gives⟩ := Routine.rungAt_eq_ok_iff.mp found
  obtain ⟨isGoal, takes⟩ := Routine.rungAt_eq_ok_iff.mp foundToo
  rcases carryOver_cases (fun _ => True) source target laid.sound isOrigin isGoal gives takes with
    ⟨error, _, _, fails, _⟩ | ⟨_, _, taken, _, filled, _, _, _, _, carried⟩
  · rw [fails] at carries
    cases carries
  rw [carried] at carries
  cases carries
  have sameSize : ((before.routine.withRung origin taken).withRung goal filled).size =
      before.routine.size := List.length_set.trans List.length_set
  refine laid.reports_of_edited sameSize (fun number => ?_) relays
  rw [isOrigin, isGoal]
  simp

theorem LaidOut.reports_addRung (laid : before.LaidOut) {source : RungSource}
    {place : Option Address} {index : Nat}
    (succeeds : (addRung source place).on before = (.ok index, after)) :
    Reports (Edit.marked after.routine.size (.addRung source place)) before after := by
  unfold addRung at succeeds
  rw [Action.on_bind, Action.on_get] at succeeds
  dsimp only at succeeds
  obtain ⟨first, inserted, inserts, succeeds⟩ := Action.exists_of_on_bind succeeds
  obtain ⟨_, between, renumbers, succeeds⟩ := Action.exists_of_on_bind succeeds
  obtain ⟨_, final, relays, answers⟩ := Action.exists_of_on_bind succeeds
  cases answers
  obtain ⟨_, insertsOne, rfl⟩ := exists_of_on_onRoutine inserts
  rcases Routine.insertRung_cases source (place.getD (.ofNat before.routine.size))
      before.routine with
    ⟨error, _, fails⟩ | ⟨_, rung, nextId, within, isPlace, _, insertsRung⟩
  · cases insertsOne.symm.trans fails
  cases insertsOne.symm.trans insertsRung
  rw [Action.on_modify] at renumbers
  cases renumbers
  have relays : (relay (index ≤ ·)).on (before.withNewRung index rung nextId) =
      (.ok (), after) := relays
  have newSize : (before.withNewRung index rung nextId).routine.size = before.routine.size + 1 :=
    List.length_insertIdx_of_le_length within rung
  have sameRoutine := (relay_leavesRoutine _).routine_eq relays
  have marks (number : Nat) :
      number ∈ Edit.marked after.routine.size (.addRung source place) ↔
        index ≤ number ∧ number < before.routine.size + 1 := by
    rw [sameRoutine, newSize, Edit.marked, Nat.add_sub_cancel, isPlace, mem_rungsFrom]
  refine reports_of_relay_from laid relays rfl (newSize ▸ marks) ?_ ?_ ?_
  · intro number _ above
    refine ⟨?_, rfl, List.getElem?_insertIdx_of_lt above⟩
    exact Nat.lt_of_lt_of_le above (laid.length_layouts ▸ within)
  · rw [newSize]
    exact Nat.le_succ_of_le laid.length_layouts.le
  · rw [newSize, ← laid.bands_length]
    exact List.length_insertIdx_of_le_length (laid.bands_length.symm ▸ within) none

theorem LaidOut.reports_removeRung (laid : before.LaidOut) {address : Address}
    (succeeds : (removeRung address).on before = (.ok (), after)) :
    Reports (Edit.marked after.routine.size (.removeRung address)) before after := by
  unfold removeRung at succeeds
  obtain ⟨index, removed, removes, succeeds⟩ := Action.exists_of_on_bind succeeds
  obtain ⟨_, between, renumbers, relays⟩ := Action.exists_of_on_bind succeeds
  obtain ⟨_, removesOne, rfl⟩ := exists_of_on_onRoutine removes
  rcases Routine.removeRung_cases address before.routine with
    ⟨error, _, fails⟩ | ⟨_, rung, isIndex, stands, removesRung⟩
  · cases removesOne.symm.trans fails
  cases removesOne.symm.trans removesRung
  rw [Action.on_modify] at renumbers
  cases renumbers
  have relays : (relay (index ≤ ·)).on (before.withoutRung index) = (.ok (), after) := relays
  obtain ⟨bounded, _⟩ := List.getElem?_eq_some_iff.mp stands
  have newSize : (before.withoutRung index).routine.size = before.routine.size - 1 :=
    List.length_eraseIdx_of_lt bounded
  have layoutsLength : (before.withoutRung index).layouts.length = before.routine.size - 1 := by
    rw [← laid.length_layouts]
    exact List.length_eraseIdx_of_lt (laid.length_layouts.symm ▸ bounded)
  have sameRoutine := (relay_leavesRoutine _).routine_eq relays
  have marks (number : Nat) :
      number ∈ Edit.marked after.routine.size (.removeRung address) ↔
        index ≤ number ∧ number < before.routine.size - 1 := by
    rw [sameRoutine, newSize, Edit.marked, isIndex, mem_rungsFrom]
  refine reports_of_relay_from laid relays rfl (newSize ▸ marks) ?_ ?_ ?_
  · intro number inside above
    rw [newSize] at inside
    exact ⟨layoutsLength.symm ▸ inside, List.getElem?_eraseIdx_of_lt above,
      List.getElem?_eraseIdx_of_lt above⟩
  · rw [newSize, layoutsLength]
  · rw [newSize, ← laid.bands_length]
    exact List.length_eraseIdx_of_lt (laid.bands_length.symm ▸ bounded)

theorem LaidOut.reports_apply (laid : before.LaidOut) {edit : Edit} {answer : edit.Answer}
    (succeeds : before.apply edit = (.ok answer, after)) :
    Reports (edit.marked after.routine.size) before after := by
  have onRung {rung : Address} {γ : Type} {change : Action OpenRung γ} {answer : γ}
      (atomic : Rung.IsAtomic (fun _ => True) change)
      (succeeds : (editRung rung change).on before = (.ok answer, after)) :
      Reports ([rung].filterMap Address.toNat?) before after := by
    refine laid.reports_editRung atomic ?_ succeeds
    rintro index rfl number
    simp
  cases edit with
  | insertInstruction rung position rail content =>
      exact onRung (Rung.insertInstruction_isAtomic position rail trivial) succeeds
  | replaceInstruction rung position content =>
      exact onRung (Rung.replaceInstruction_isAtomic position trivial) succeeds
  | deleteElement rung position => exact onRung (Rung.deleteElement_isAtomic position) succeeds
  | insertBranch rung first last rail =>
      exact onRung (Rung.insertBranch_isAtomic first last rail) succeeds
  | insertBranchLevel rung position =>
      exact onRung (Rung.insertBranchLevel_isAtomic position) succeeds
  | moveBranch rung id target rail =>
      exact onRung (Rung.moveBranch_isAtomic id target rail) succeeds
  | removeBranch rung id => exact onRung (Rung.removeBranch_isAtomic id) succeeds
  | moveElement source target =>
      have succeeds : (moveElement source target).on before = (.ok answer, after) := succeeds
      unfold moveElement at succeeds
      split at succeeds
      next same =>
        have atomic (place : Address) : Rung.IsAtomic (fun _ => True)
            (Rung.moveInstruction source.position place target.rail) :=
          Rung.moveInstruction_isAtomic _ _ _
        refine laid.reports_editRung (atomic _) ?_ succeeds
        intro index isIndex number
        rw [Edit.marked, ← eq_of_sameRung? same, isIndex]
        simp
      next => exact laid.reports_moveAcross succeeds
  | setComment rung comment => exact onRung (Rung.setComment_isAtomic comment) succeeds
  | addRung source place => exact laid.reports_addRung succeeds
  | removeRung rung => exact laid.reports_removeRung succeeds

/-- A pass over everything is told about all rungs. -/
theorem LaidOut.reports_relayAll (laid : before.LaidOut)
    (succeeds : relayAll.on before = (.ok (), after)) :
    Reports (List.range after.routine.size) before after := by
  unfold relayAll at succeeds
  rw [Action.on_bind, Action.on_modify] at succeeds
  dsimp only at succeeds
  have sameRoutine := (relay_leavesRoutine _).routine_eq succeeds
  rw [sameRoutine]
  refine reports_of_relay laid succeeds rfl ?_ (Nat.zero_le _) laid.bands_length ?_
    (Or.inr ⟨0, fun number => ?_⟩)
  · exact fun number inside unmarked => absurd (List.mem_range.mpr inside) unmarked
  · exact fun number inside => iff_of_true rfl (List.mem_range.mpr inside)
  · rw [List.mem_range]
    exact (and_iff_right (Nat.zero_le number)).symm

end Edits

/--
After any run of edits, the pass of an edit that succeeds is the run of a queue.  It ends, and
its report lists in ascending order the rungs that have come up in it: each once, and all whose
layout is another one than before.  A rung that the edit has not marked is directly below one
of the report that begins elsewhere or has another height than before.  The same holds of a
pass over everything, which marks all rungs.
-/
theorem relaid_isReport [ExactScalar α] (config : LayoutConfig α) {routine : Routine}
    (reachable : routine.Reachable) (edits : List Edit) {drawing : Drawing α}
    (isRun : drawing = (ofRoutine config routine).2.run edits) :
    (∀ (edit : Edit) (answer : edit.Answer) (after : Drawing α),
      drawing.apply edit = (.ok answer, after) →
        Reports (edit.marked after.routine.size) drawing after) ∧
    ∀ after, relayAll.on drawing = (.ok (), after) →
      Reports (List.range after.routine.size) drawing after := by
  obtain ⟨start, makes, laidStart, _⟩ := exists_ofRoutine config reachable.isSound
  rw [makes] at isRun
  obtain ⟨laid, _⟩ : LaidOut drawing ∧ drawing.config = start.config :=
    isRun ▸ laidStart.run edits
  exact ⟨fun edit answer after succeeds => laid.reports_apply succeeds,
    fun after succeeds => laid.reports_relayAll succeeds⟩

/-- A third rail in the branch of the first rung makes the second rung slide. -/
theorem relaid_isReport_of_sample :
    ∃ routine, Routine.ofSource Routine.sampleSource = .ok routine ∧
      ∃ (drawing after : Drawing Rat) (id : BranchId),
        drawing = (ofRoutine .standard routine).2 ∧
        drawing.apply (.insertBranchLevel (.ofNat 0) (.ofNat 0)) = (.ok id, after) ∧
        after.relaid = [0, 1] ∧ Reports [0] drawing after := by
  have computed : (Routine.ofSource Routine.sampleSource).toOption.map (fun routine =>
      ((ofRoutine (.standard : LayoutConfig Rat) routine).2.apply
        (.insertBranchLevel (.ofNat 0) (.ofNat 0))).map (·.toOption.isSome) (·.relaid)) =
          some (true, [0, 1]) := by
    decide +kernel
  obtain ⟨routine, loads, evaluated⟩ := exists_ok_of_map computed
  obtain ⟨answered, relaid⟩ := Prod.mk.inj evaluated
  obtain ⟨id, after, inserts⟩ := exists_ok_pair_of_isSome answered
  rw [inserts] at relaid
  exact ⟨routine, loads, _, after, id, rfl, inserts, relaid,
    (relaid_isReport .standard (.loaded loads) [] rfl).1 _ id after inserts⟩

end Drawing
end LadderDiagram
