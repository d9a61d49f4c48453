import LadderDiagram.Drawing.Edit
import LadderDiagram.Proofs.Layout.Engine
import LadderDiagram.Proofs.Routine.Sound

/-!
# What edits of drawings leave in the routine

A layout pass changes the layouts of a drawing and never its routine.  So an edit of a
drawing leaves the routine that the edit of the routine leaves, or the one that was there
before with some more handles taken, if the layout fails after it.  Either way the routine
stays sound, and its instructions are old ones and those that the edit was given.
Nothing here depends on the numbers in which the layouts are measured.
-/

namespace LadderDiagram

/-- The instructions that an edit is given have a property. -/
def Edit.Brings (own : Instruction → Prop) : Edit → Prop
  | .insertInstruction _ _ _ content => own content
  | .replaceInstruction _ _ content => own content
  | _ => True

theorem Edit.brings_anything (edit : Edit) : edit.Brings fun _ => True := by
  cases edit <;> trivial

/-- A sound routine whose instructions all have a property, and whose comments say something. -/
structure Routine.Carries (own : Instruction → Prop) (routine : Routine) : Prop where
  sound : routine.IsSound
  holds : routine.Holds own
  commented : routine.IsCommented

namespace Routine

variable {own : Instruction → Prop} {routine : Routine} {index : Nat} {rung : Rung}

theorem Carries.mono {wider : Instruction → Prop} (carries : routine.Carries own)
    (widens : ∀ content, own content → wider content) : routine.Carries wider :=
  ⟨carries.sound, fun rung member content stands =>
    widens content (carries.holds rung member content stands), carries.commented⟩

/-- More handles may have been taken than a routine shows. -/
theorem Carries.withNextId (carries : routine.Carries own) {nextId : Nat}
    (grows : routine.nextId ≤ nextId) : Carries own { routine with nextId := nextId } := by
  refine ⟨⟨carries.sound.rungs, carries.sound.distinct, ?_⟩, carries.holds, carries.commented⟩
  exact fun id member => (carries.sound.given id member).mono (Nat.le_refl _) grows

theorem Carries.withRung (carries : routine.Carries own) {after : OpenRung}
    (stands : routine.rungs[index]? = some rung)
    (edited : OpenRung.Edited own ⟨rung, routine.nextId⟩ after) :
    (routine.withRung index after).Carries own :=
  ⟨carries.sound.withRung stands edited, carries.holds.withRung stands edited,
    carries.commented.withRung stands edited⟩

/-- An edited rung that is given back leaves nothing of its edit but the handles it took. -/
theorem withRung_setRung (stands : routine.rungs[index]? = some rung) (after : OpenRung) :
    (routine.withRung index after).setRung index rung =
      { routine with nextId := after.nextId } := by
  unfold withRung setRung
  rw [List.set_set, set_of_getElem? stands]

/-- Two edited rungs that are given back leave nothing but the handles their edits took. -/
theorem withRung_withRung_setRung_setRung {first second : Nat} {own other : Rung}
    (stands : routine.rungs[first]? = some own) (standsToo : routine.rungs[second]? = some other)
    (between after : OpenRung) :
    ((((routine.withRung first between).withRung second after).setRung first own).setRung second
      other) = { routine with nextId := after.nextId } := by
  have same : (((routine.rungs.set first between.rung).set second after.rung).set first own).set
      second other = routine.rungs := by
    obtain ⟨bounded, _⟩ := List.getElem?_eq_some_iff.mp stands
    obtain ⟨boundedToo, _⟩ := List.getElem?_eq_some_iff.mp standsToo
    apply List.ext_getElem?
    intro place
    by_cases isSecond : second = place
    · subst isSecond
      rw [List.getElem?_set_self (by simpa using boundedToo), standsToo]
    rw [List.getElem?_set_ne isSecond]
    by_cases isFirst : first = place
    · subst isFirst
      rw [List.getElem?_set_self (by simpa using bounded), stands]
    · rw [List.getElem?_set_ne isFirst, List.getElem?_set_ne isSecond, List.getElem?_set_ne isFirst]
  unfold withRung setRung
  rw [same]

end Routine

namespace Action

variable {σ β γ : Type} {holds : σ → Prop} {state : σ}

/-- On a state, an action ends in a state with a property, whether it succeeds or fails. -/
def Ends (holds : σ → Prop) (action : Action σ β) (state : σ) : Prop := holds (action.on state).2

theorem Ends.bind {first : Action σ β} {next : β → Action σ γ} (ends : first.Ends holds state)
    (onward : ∀ answer after, holds after → (next answer).Ends holds after) :
    (first >>= next).Ends holds state := by
  unfold Ends at ends ⊢
  rw [on_bind]
  rcases outcome : first.on state with ⟨error | answer, after⟩
  · rw [outcome] at ends
    exact ends
  · rw [outcome] at ends
    exact onward answer after ends

theorem Ends.bind_of_error {first : Action σ β} {next : β → Action σ γ} {error : LadderError}
    {after : σ} (fails : first.on state = (.error error, after)) (kept : holds after) :
    (first >>= next).Ends holds state := by
  unfold Ends
  rw [on_bind_of_error fails]
  exact kept

theorem Ends.bind_of_ok {first : Action σ β} {next : β → Action σ γ} {answer : β} {after : σ}
    (succeeds : first.on state = (.ok answer, after)) (ends : (next answer).Ends holds after) :
    (first >>= next).Ends holds state := by
  unfold Ends
  rw [on_bind_of_ok succeeds]
  exact ends

theorem Ends.ask_bind {question : σ → Except LadderError β} {next : β → Action σ γ}
    (kept : holds state)
    (succeeds : ∀ answer, question state = .ok answer → (next answer).Ends holds state) :
    (ask question >>= next).Ends holds state := by
  unfold Ends
  rw [on_bind_ask]
  cases outcome : question state with
  | error error => exact kept
  | ok answer => exact succeeds answer outcome

/-- An action may fail in a state without the property, if the undoing leads back to one with it. -/
theorem Ends.undoing {undo : Action σ Unit} {action : Action σ β}
    (succeeds : ∀ answer after, action.on state = (.ok answer, after) → holds after)
    (fails : ∀ error after, action.on state = (.error error, after) → undo.Ends holds after) :
    (undoing undo action).Ends holds state := by
  unfold Ends Action.undoing
  rw [on_bind, on_get]
  dsimp only
  rw [on_bind, on_set]
  rcases outcome : action.on state with ⟨error | answer, after⟩
  · exact Ends.bind (fails error after outcome) fun _ _ kept => kept
  · exact succeeds answer after outcome

end Action

namespace Drawing

variable {α β γ : Type} {own : Instruction → Prop}

theorem on_onRoutine (action : Action Routine β) (drawing : Drawing α) :
    (onRoutine action).on drawing =
      ((action.on drawing.routine).1, { drawing with routine := (action.on drawing.routine).2 }) :=
  Action.on_within _ _ _ _

theorem exists_of_on_onRoutine {action : Action Routine β} {drawing after : Drawing α}
    {outcome : Except LadderError β} (ends : (onRoutine action).on drawing = (outcome, after)) :
    ∃ routine, action.on drawing.routine = (outcome, routine) ∧
      after = { drawing with routine := routine } := by
  rw [on_onRoutine] at ends
  cases ends
  exact ⟨_, rfl, rfl⟩

theorem on_restoreRung (index : Nat) (before : Rung) (drawing : Drawing α) :
    (restoreRung index before).on drawing =
      (.ok (), { drawing with routine := drawing.routine.setRung index before.restored }) :=
  on_onRoutine _ _

/-! ### Layout passes -/

/-- An action that changes nothing about the routine, whether it succeeds or fails. -/
def LeavesRoutine (action : Action (Drawing α) β) : Prop :=
  ∀ (routine : Routine) (drawing : Drawing α), drawing.routine = routine →
    action.Ends (fun after => after.routine = routine) drawing

theorem LeavesRoutine.bind {first : Action (Drawing α) β} {next : β → Action (Drawing α) γ}
    (leaves : LeavesRoutine first) (leavesAfter : ∀ answer, LeavesRoutine (next answer)) :
    LeavesRoutine (first >>= next) := by
  intro routine drawing same
  exact (leaves routine drawing same).bind fun answer after => leavesAfter answer routine after

theorem LeavesRoutine.routine_eq {action : Action (Drawing α) β} (leaves : LeavesRoutine action)
    {drawing after : Drawing α} {outcome : Except LadderError β}
    (runs : action.on drawing = (outcome, after)) : after.routine = drawing.routine := by
  have left := leaves drawing.routine drawing rfl
  unfold Action.Ends at left
  rw [runs] at left
  exact left

/-- What depends on the routine only stays as it is. -/
theorem LeavesRoutine.ends {action : Action (Drawing α) β} (leaves : LeavesRoutine action)
    {holds : Routine → Prop} {drawing : Drawing α} (kept : holds drawing.routine) :
    action.Ends (fun after => holds after.routine) drawing := by
  have same : (action.on drawing).2.routine = drawing.routine := leaves _ drawing rfl
  unfold Action.Ends
  dsimp only
  rw [same]
  exact kept

variable [Scalar α]

theorem relayRung_leavesRoutine (index : Nat) (rung : Rung) :
    LeavesRoutine (relayRung (α := α) index rung) := by
  rintro _ drawing rfl
  unfold relayRung Action.Ends
  rw [Action.on_bind, Action.on_get]
  dsimp only
  rw [Action.on_bind, Action.on_settled]
  cases layoutRung drawing.config drawing.arena
    (rungInput index (drawing.bandStart index) rung) with
  | error error => rfl
  | ok result => rfl

theorem relayFrom_leavesRoutine (dirty : Nat → Bool) (index : Nat) (slid : Bool)
    (rungs : List Rung) : LeavesRoutine (relayFrom (α := α) dirty index slid rungs) := by
  induction rungs generalizing index slid with
  | nil => exact fun routine drawing same => same
  | cons rung rest ih =>
      unfold relayFrom
      by_cases stale : (dirty index || slid) = true
      · rw [if_pos stale]
        apply (relayRung_leavesRoutine index rung).bind
        exact fun moved => (ih (index + 1) moved).bind fun others routine drawing same => same
      · rw [if_neg stale]
        exact ih (index + 1) false

theorem relay_leavesRoutine (dirty : Nat → Bool) : LeavesRoutine (relay (α := α) dirty) := by
  have modifies (change : Drawing α → Drawing α)
      (same : ∀ drawing, (change drawing).routine = drawing.routine) :
      LeavesRoutine (modify change : Action (Drawing α) PUnit) :=
    fun routine drawing isRoutine => (same drawing).trans isRoutine
  unfold relay
  refine LeavesRoutine.bind (modifies _ ?_) fun _ => ?_
  · exact fun drawing => rfl
  refine LeavesRoutine.bind (fun routine drawing same => same) fun drawing => ?_
  refine (relayFrom_leavesRoutine dirty 0 false drawing.routine.rungs).bind fun relaid => ?_
  exact modifies _ fun drawing => rfl

theorem relayAll_leavesRoutine : LeavesRoutine (relayAll (α := α)) := by
  unfold relayAll
  refine LeavesRoutine.bind (fun routine drawing same => same) fun _ => ?_
  exact relay_leavesRoutine _

/-! ### Making -/

/-- Where every rung is sound, a pass over the rungs does not fail. -/
theorem exists_relayFrom {rungs : List Rung} (sound : ∀ rung ∈ rungs, rung.IsSound)
    (dirty : Nat → Bool) (index : Nat) (slid : Bool) (drawing : Drawing α) :
    ∃ numbers after, (relayFrom dirty index slid rungs).on drawing = (.ok numbers, after) := by
  induction rungs generalizing index slid drawing with
  | nil => exact ⟨[], drawing, rfl⟩
  | cons rung rest ih =>
      obtain ⟨rungSound, restSound⟩ := List.forall_mem_cons.mp sound
      unfold relayFrom
      by_cases stale : dirty index || slid
      · obtain ⟨layout, isOf⟩ := exists_isOf drawing.config
          (rungInput index (drawing.bandStart index) rung) rungSound.wellNested
        have relays : ∃ moved between,
            (relayRung index rung).on drawing = (.ok moved, between) := by
          unfold relayRung
          rw [Action.on_bind, Action.on_get]
          dsimp only
          rw [Action.on_bind, Action.on_settled, isOf.laidOut]
          exact ⟨_, _, rfl⟩
        obtain ⟨moved, between, relays⟩ := relays
        obtain ⟨numbers, after, relaysRest⟩ := ih restSound (index + 1) moved between
        rw [if_pos stale, Action.on_bind_of_ok relays, Action.on_bind_of_ok relaysRest]
        exact ⟨_, _, rfl⟩
      · rw [if_neg stale]
        exact ih restSound (index + 1) false drawing

/-- Nor does a layout of some of them, which leaves the routine as it is. -/
theorem exists_relay (drawing : Drawing α) (sound : drawing.routine.IsSound) (dirty : Nat → Bool) :
    ∃ after, (relay dirty).on drawing = (.ok (), after) ∧ after.routine = drawing.routine := by
  obtain ⟨numbers, after, relays⟩ := exists_relayFrom sound.rungs dirty 0 false
    { drawing with layouts := drawing.layouts.take drawing.routine.size }
  have laidOut : (relay dirty).on drawing = (.ok (), { after with relaid := numbers }) := by
    unfold relay
    rw [Action.on_bind, Action.on_modify]
    dsimp only
    rw [Action.on_bind, Action.on_get]
    exact (Action.on_bind_of_ok relays _).trans rfl
  exact ⟨_, laidOut, (relay_leavesRoutine dirty).routine_eq laidOut⟩

/-- The drawing of a sound routine is made without an error. -/
theorem exists_ofRoutine_of_isSound (config : LayoutConfig α) {routine : Routine}
    (sound : routine.IsSound) :
    ∃ drawing, ofRoutine config routine = (.ok (), drawing) ∧ drawing.routine = routine :=
  exists_relay { blank config routine with arena := .empty, layouts := [] } sound _

/-! ### Edits -/

/-- An edit that leaves routines sound and their instructions such as they were. -/
def KeepsContent (own : Instruction → Prop) (edit : Action (Drawing α) β) : Prop :=
  ∀ drawing : Drawing α, drawing.routine.Carries own →
    edit.Ends (fun after => after.routine.Carries own) drawing

theorem editRung_keepsContent {edit : Action OpenRung β} (atomic : Rung.IsAtomic own edit)
    (address : Address) : KeepsContent own (editRung (α := α) address edit) := by
  intro drawing carries
  unfold Drawing.editRung
  refine .ask_bind carries fun (index, before) found => ?_
  obtain ⟨rfl, stands⟩ := Routine.rungAt_eq_ok_iff.mp found
  dsimp only
  rcases Routine.editRung_cases atomic (.ofNat index) carries.sound with
    ⟨error, _, fails⟩ | ⟨place, rung, answer, after, named, stood, edited, _, succeeds⟩
  · have failsHere : (onRoutine (Routine.editRung (.ofNat index) edit)).on drawing =
        (.error error, drawing) := by
      rw [on_onRoutine, fails]
    exact .bind_of_error failsHere carries
  obtain rfl := Address.ofNat_inj.mp named
  obtain rfl : before = rung := Option.some.inj (stands.symm.trans stood)
  have succeedsHere : (onRoutine (Routine.editRung (.ofNat index) edit)).on drawing =
      (.ok answer, { drawing with routine := drawing.routine.withRung index after }) := by
    rw [on_onRoutine, succeeds]
  refine .bind_of_ok succeedsHere (.bind (.undoing ?_ ?_) fun _ _ kept => kept)
  · intro _ final relays
    rw [(relay_leavesRoutine _).routine_eq relays]
    exact carries.withRung stands edited
  · intro error final relays
    unfold Action.Ends
    rw [on_restoreRung]
    dsimp only
    rw [(relay_leavesRoutine _).routine_eq relays, (carries.sound.rungAt stands).restored_eq]
    dsimp only
    rw [Routine.withRung_setRung stands]
    exact carries.withNextId edited.nextId_le

/-! ### Moves between rungs -/

omit [Scalar α] in
/--
A carried instruction is taken from one rung and put into another one.  If it cannot be
put there, only the rung that it was taken from has changed, and no handle is lost.
-/
theorem carryOver_cases (own : Instruction → Prop) (source : ElementAddress) (target : DropTarget)
    {drawing : Drawing α} (sound : drawing.routine.IsSound) {origin goal : Nat}
    {giver taker : Rung} (fromOrigin : source.rung = .ofNat origin)
    (toGoal : target.rung = .ofNat goal) (gives : drawing.routine.rungs[origin]? = some giver)
    (takes : drawing.routine.rungs[goal]? = some taker) :
    (∃ error after, error.IsOrdinary ∧
      (carryOver source target).on drawing = (.error error, { drawing with routine := after }) ∧
      (after.setRung origin giver).setRung goal taker = drawing.routine) ∨
    ∃ answer content taken another filled, .instruction content ∈ drafts giver.elements ∧
      OpenRung.Edited own ⟨giver, drawing.routine.nextId⟩ taken ∧
      (drawing.routine.withRung origin taken).rungs[goal]? = some another ∧
      OpenRung.Edited (· = content) ⟨another, taken.nextId⟩ filled ∧
      (carryOver source target).on drawing =
        (.ok answer, { drawing with
          routine := (drawing.routine.withRung origin taken).withRung goal filled }) := by
  have unchanged (routine : Routine) (same : routine.rungs = drawing.routine.rungs) :
      (routine.setRung origin giver).setRung goal taker = routine := by
    unfold Routine.setRung
    rw [same, set_of_getElem? gives, set_of_getElem? takes, ← same]
  unfold carryOver
  rw [Action.on_bind, on_onRoutine]
  rcases Routine.takeInstruction_cases own source.rung source.position sound with
    ⟨error, ordinary, fails⟩ |
      ⟨place, rung, element, content, taken, named, stood, member, edited, sameId, succeeds⟩
  · refine Or.inl ⟨error, drawing.routine, ordinary, ?_, unchanged _ rfl⟩
    rw [fails]
  obtain rfl := Address.ofNat_inj.mp (fromOrigin.symm.trans named)
  obtain rfl : giver = rung := Option.some.inj (gives.symm.trans stood)
  rw [succeeds]
  dsimp only
  rw [on_onRoutine]
  have soundBetween := sound.withRung gives edited
  have putIn : Rung.IsAtomic (· = content)
      (Rung.insertInstruction target.position target.rail content) :=
    Rung.insertInstruction_isAtomic target.position target.rail rfl
  rcases Routine.editRung_cases putIn target.rung soundBetween with
    ⟨error, ordinary, fails⟩ | ⟨other, another, answer, filled, namedToo, standsToo, editedToo, _,
      succeedsToo⟩
  · refine Or.inl ⟨error, drawing.routine.withRung origin taken, ordinary, ?_, ?_⟩
    · rw [fails]
    · rw [Routine.withRung_setRung gives, sameId]
      unfold Routine.setRung
      rw [set_of_getElem? takes]
  · obtain rfl := Address.ofNat_inj.mp (toGoal.symm.trans namedToo)
    refine Or.inr
      ⟨answer, content, taken, another, filled, member, edited, standsToo, editedToo, ?_⟩
    rw [succeedsToo]

theorem moveAcross_keepsContent (source : ElementAddress) (target : DropTarget) :
    KeepsContent own (moveAcross (α := α) source target) := by
  intro drawing carries
  unfold moveAcross
  refine .ask_bind carries fun (origin, giver) foundGiver => ?_
  obtain ⟨fromOrigin, gives⟩ := Routine.rungAt_eq_ok_iff.mp foundGiver
  dsimp only
  refine .ask_bind carries fun (goal, taker) foundTaker => ?_
  obtain ⟨toGoal, takes⟩ := Routine.rungAt_eq_ok_iff.mp foundTaker
  dsimp only
  have giverBack : giver.restored = giver := (carries.sound.rungAt gives).restored_eq
  have takerBack : taker.restored = taker := (carries.sound.rungAt takes).restored_eq
  have leaves := relay_leavesRoutine (α := α) fun index => index == origin || index == goal
  -- Whatever the layout pass at the end does, both rungs are given back before it.
  have undone (failed : Drawing α)
      (kept : ((failed.routine.setRung origin giver).setRung goal taker).Carries own) :
      Action.Ends (fun after => after.routine.Carries own) (do
        restoreRung origin giver
        restoreRung goal taker
        relay fun index => index == origin || index == goal) failed := by
    refine .bind_of_ok (on_restoreRung _ _ _) (.bind_of_ok (on_restoreRung _ _ _) (leaves.ends ?_))
    rw [giverBack, takerBack]
    exact kept
  rcases carryOver_cases own source target carries.sound fromOrigin toGoal gives takes with
    ⟨error, after, _, fails, putBack⟩ |
      ⟨answer, content, taken, another, filled, member, edited, standsToo, editedToo, succeeds⟩
  · refine .undoing (fun _ _ outcome => ?_) fun _ _ outcome => ?_
    · rw [Action.on_bind_of_error fails] at outcome
      cases outcome
    · rw [Action.on_bind_of_error fails] at outcome
      cases outcome
      apply undone
      rw [putBack]
      exact carries
  · have leavesToo : LeavesRoutine (α := α) (do
        relay fun index => index == origin || index == goal
        pure answer) :=
      leaves.bind fun _ _ _ same => same
    refine .undoing (fun _ final outcome => ?_) fun _ final outcome => ?_
    · rw [Action.on_bind_of_ok succeeds] at outcome
      have isOwn := carries.holds giver (List.mem_of_getElem? gives) content member
      rw [leavesToo.routine_eq outcome]
      exact (carries.withRung gives edited).withRung standsToo
        (editedToo.mono fun own same => same ▸ isOwn)
    · rw [Action.on_bind_of_ok succeeds] at outcome
      apply undone
      rw [leavesToo.routine_eq outcome, Routine.withRung_withRung_setRung_setRung gives takes]
      exact carries.withNextId (Nat.le_trans edited.nextId_le editedToo.nextId_le)

/-! ### Adding and removing rungs -/

theorem addRung_keepsContent (reads : ∀ content : Instruction, content.IsRead → own content)
    (source : RungSource) (place : Option Address) :
    KeepsContent own (addRung (α := α) source place) := by
  intro drawing carries
  unfold addRung
  refine .bind_of_ok (Action.on_get drawing) ?_
  dsimp only
  generalize place.getD (.ofNat drawing.routine.size) = gap
  rcases Routine.insertRung_cases source gap drawing.routine with
    ⟨error, _, fails⟩ | ⟨index, rung, nextId, within, _, arises, succeeds⟩
  · have failsHere : (onRoutine (Routine.insertRung source gap)).on drawing =
        (.error error, drawing) := by
      rw [on_onRoutine, fails]
    exact .bind_of_error failsHere carries
  · have succeedsHere : (onRoutine (Routine.insertRung source gap)).on drawing =
        (.ok index, { drawing with routine := { drawing.routine with
          rungs := drawing.routine.rungs.insertIdx index rung, nextId := nextId } }) := by
      rw [on_onRoutine, succeeds]
    apply Action.Ends.bind_of_ok succeedsHere
    apply Action.Ends.bind_of_ok (Action.on_modify _ _)
    refine .bind ?_ fun _ _ kept => kept
    apply (relay_leavesRoutine _).ends
    exact ⟨carries.sound.insertIdx arises within, carries.holds.insertIdx reads arises within,
      carries.commented.insertIdx arises within⟩

theorem removeRung_keepsContent (address : Address) :
    KeepsContent own (removeRung (α := α) address) := by
  intro drawing carries
  unfold removeRung
  rcases Routine.removeRung_cases address drawing.routine with
    ⟨error, _, fails⟩ | ⟨index, rung, _, stands, succeeds⟩
  · have failsHere : (onRoutine (Routine.removeRung address)).on drawing =
        (.error error, drawing) := by
      rw [on_onRoutine, fails]
    exact .bind_of_error failsHere carries
  · have succeedsHere : (onRoutine (Routine.removeRung address)).on drawing =
        (.ok index, { drawing with
          routine := { drawing.routine with rungs := drawing.routine.rungs.eraseIdx index } }) := by
      rw [on_onRoutine, succeeds]
    apply Action.Ends.bind_of_ok succeedsHere
    apply Action.Ends.bind_of_ok (Action.on_modify _ _)
    apply (relay_leavesRoutine _).ends
    exact ⟨carries.sound.eraseIdx index, carries.holds.eraseIdx index,
      carries.commented.eraseIdx index⟩

/-! ### All edits -/

/--
What holds of every edit of one rung, of moves between rungs and of adding and removing
rungs holds of every edit.
-/
theorem act_cases (motive : ∀ β : Type, Action (Drawing α) β → Prop)
    (onRung : ∀ (β : Type) (edit : Action OpenRung β), Rung.IsAtomic own edit →
      ∀ address, motive β (editRung address edit))
    (across : ∀ source target, motive Element (moveAcross source target))
    (adding : ∀ source place, motive Nat (addRung source place))
    (removing : ∀ address, motive Unit (removeRung address))
    (edit : Edit) (brings : edit.Brings own) : motive edit.Answer (act edit) := by
  cases edit with
  | insertInstruction rung position rail content =>
      exact onRung _ _ (Rung.insertInstruction_isAtomic position rail brings) rung
  | replaceInstruction rung position content =>
      exact onRung _ _ (Rung.replaceInstruction_isAtomic position brings) rung
  | deleteElement rung position => exact onRung _ _ (Rung.deleteElement_isAtomic position) rung
  | insertBranch rung first last rail =>
      exact onRung _ _ (Rung.insertBranch_isAtomic first last rail) rung
  | insertBranchLevel rung position =>
      exact onRung _ _ (Rung.insertBranchLevel_isAtomic position) rung
  | moveBranch rung id target rail =>
      exact onRung _ _ (Rung.moveBranch_isAtomic id target rail) rung
  | removeBranch rung id => exact onRung _ _ (Rung.removeBranch_isAtomic id) rung
  | moveElement source target =>
      change motive Element (moveElement source target)
      unfold moveElement
      by_cases same : sameRung? source.rung target.rung
      · rw [if_pos same]
        exact onRung _ _ (Rung.moveInstruction_isAtomic _ _ _) source.rung
      · rw [if_neg same]
        exact across source target
  | setComment rung comment => exact onRung _ _ (Rung.setComment_isAtomic comment) rung
  | addRung source place => exact adding source place
  | removeRung rung => exact removing rung

/-- Every edit leaves the routine sound, with its instructions and those that it was given. -/
theorem act_keepsContent (reads : ∀ content : Instruction, content.IsRead → own content)
    (edit : Edit) (brings : edit.Brings own) : KeepsContent own (act (α := α) edit) :=
  act_cases (fun _ action => KeepsContent own action)
    (fun _ _ atomic address => editRung_keepsContent atomic address) moveAcross_keepsContent
    (addRung_keepsContent reads) removeRung_keepsContent edit brings

end Drawing
end LadderDiagram
