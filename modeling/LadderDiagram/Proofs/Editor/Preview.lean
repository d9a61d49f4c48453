import LadderDiagram.Proofs.Editor.Workspace

/-!
# What a hover shows and what follows

A hover shows the gap into which something would be put.  The click or the release at the
same point looks for the gap once more, on the same drawing, and hands it to an edit that
checks it against the sequence.  The check is passed because the gap that is found is named
with the rail on which the sequence has it; so the edit is made just there, and nowhere else.
-/

namespace LadderDiagram
namespace Workspace

variable {α : Type} [Scalar α] {workspace : Workspace α} {x y : α}

/-! ### What is shown -/

theorem hover_of_ok {target : InsertionTarget} (edits : workspace.session.mode ≠ .tool .view)
    (resolves : workspace.drawing.resolveInsertion x y = .ok target) :
    workspace.hover x y = .ok (some target) := by
  unfold hover
  rw [if_neg edits, resolves]

theorem hover_of_error {error : LadderError} (edits : workspace.session.mode ≠ .tool .view)
    (fails : workspace.drawing.resolveInsertion x y = .error error)
    (recoverable : error.recoverable = true) : workspace.hover x y = .ok none := by
  unfold hover
  rw [if_neg edits, fails]
  exact if_pos recoverable

/-! ### What is done -/

theorem insertAtPoint_of_error {drawing : Drawing α} {error : LadderError}
    (content : Instruction) (fails : drawing.resolveInsertion x y = .error error) :
    (Editor.insertAtPoint drawing x y content).outcome = .error error ∧
      (Editor.insertAtPoint drawing x y content).drawing = drawing := by
  unfold Editor.insertAtPoint
  rw [fails, Editor.report_outcome, Editor.report_drawing]
  exact ⟨rfl, rfl⟩

theorem insertAtPoint_of_ok {drawing final : Drawing α} {target : InsertionTarget}
    {content : Instruction} {element : Element}
    (resolves : drawing.resolveInsertion x y = .ok target)
    (inserts : Editor.insertAt drawing target content = (.ok element, final)) :
    (Editor.insertAtPoint drawing x y content).outcome = .ok (target.rungNumber, element) ∧
      (Editor.insertAtPoint drawing x y content).drawing = final := by
  unfold Editor.insertAtPoint
  rw [resolves, Editor.report_outcome, Editor.report_drawing]
  dsimp only
  rw [inserts]
  exact ⟨rfl, rfl⟩

/-- A turn is ignored and leaves the whole drawing as it is. -/
def Ignores (workspace : Workspace α) (turn : Turn α SessionOutcome) : Prop :=
  (∃ reason, turn.outcome = .ok (.ignored reason)) ∧ turn.workspace.drawing = workspace.drawing

/-- A turn puts one instruction into the gap of a target, on its rail, and nothing else. -/
def Inserts (workspace : Workspace α) (content : Instruction) (turn : Turn α SessionOutcome)
    (target : InsertionTarget) : Prop :=
  ∃ index gap element, target.rungNumber = .ofNat index ∧ target.position = .ofNat gap ∧
    turn.outcome = .ok (.inserted target.rungNumber target.position) ∧
    workspace.drawing.routine.Turns
      (workspace.drawing.routine.sources.modify index (·.insertIdx gap (.instruction content)))
      turn.workspace.drawing.routine ∧
    turn.workspace.drawing.routine.Places index gap target.branchId content element

/--
A turn takes one instruction out and puts it into the gap of a target, on its rail, and
nothing else.  If both are in one rung, the gap is counted without the instruction.
-/
def Moves (workspace : Workspace α) (origin place : Nat) (content : Instruction)
    (turn : Turn α SessionOutcome) (target : InsertionTarget) : Prop :=
  ∃ index gap element, target.rungNumber = .ofNat index ∧ target.position = .ofNat gap ∧
    turn.outcome =
      .ok (.moved target.rungNumber (.ofNat (Drawing.landing origin place index gap))) ∧
    workspace.drawing.routine.Turns
      ((workspace.drawing.routine.sources.modify origin (·.eraseIdx place)).modify index
        (·.insertIdx (Drawing.landing origin place index gap) (.instruction content)))
      turn.workspace.drawing.routine ∧
    turn.workspace.drawing.routine.Places index (Drawing.landing origin place index gap)
      target.branchId content element

/-- A turn does what a hover at its point has shown, and the session is viewing after it. -/
structure FollowsHover (workspace : Workspace α) (x y : α) (turn : Turn α SessionOutcome)
    (does : InsertionTarget → Prop) : Prop where
  views : turn.workspace.session.mode = .tool .view
  shown : (∃ target, workspace.hover x y = .ok (some target) ∧ does target) ∨
    workspace.hover x y = .ok none ∧ workspace.Ignores turn

omit [Scalar α] in
/-- A success of the editor becomes the outcome of the turn. -/
theorem ignoring_takeAs_of_ok {β : Type} (workspace : Workspace α) {reply : Reply α β}
    (answer : β → SessionOutcome) {value : β} (succeeds : reply.outcome = .ok value) :
    (ignoring (workspace.takeAs reply answer)).outcome = .ok (answer value) ∧
      (ignoring (workspace.takeAs reply answer)).workspace.drawing = reply.drawing := by
  have outcome : (workspace.takeAs reply answer).outcome = .ok (answer value) :=
    congrArg (Except.map answer) succeeds
  refine ⟨?_, congrArg Workspace.drawing (ignoring_workspace _)⟩
  unfold ignoring
  rw [outcome]
  exact outcome

omit [Scalar α] in
theorem ignoring_of_error {turn : Turn α SessionOutcome} {error : LadderError}
    (fails : turn.outcome = .error error) (recoverable : error.recoverable = true) :
    (ignoring turn).outcome = .ok (.ignored error.message) := by
  unfold ignoring
  rw [fails]
  dsimp only
  rw [if_pos recoverable]

theorem mode_afterEdit {β : Type} {session : Session} (views : session.mode = .tool .view)
    (outcome : Except LadderError β) : (session.afterEdit outcome).mode = .tool .view := by
  have stays : session.mode ≠ .drag := by simp [views]
  unfold Session.afterEdit Session.afterLayout
  cases outcome with
  | error error => exact views
  | ok answer =>
      simp only [if_neg stays]
      split
      next => exact views
      next => exact views

variable [ExactScalar α]

/-- Where something can be put, an instruction is put; elsewhere nothing happens. -/
theorem insertHere_cases (laid : workspace.drawing.LaidOut)
    (views : workspace.session.mode = .tool .view) (x y : α) (content : Instruction) :
    (workspace.insertHere x y content).workspace.session.mode = .tool .view ∧
      ((∃ error, workspace.drawing.resolveInsertion x y = .error error ∧
          error.recoverable = true ∧ workspace.Ignores (workspace.insertHere x y content)) ∨
        ∃ target, workspace.drawing.resolveInsertion x y = .ok target ∧
          workspace.Inserts content (workspace.insertHere x y content) target) := by
  refine ⟨?_, ?_⟩
  · rw [insertHere_workspace, called_eq]
    exact mode_afterEdit views _
  rcases laid.resolveInsertion_cases x y with
    ⟨error, fails, recoverable⟩ | ⟨target, index, rung, gap, resolves, names⟩
  · obtain ⟨failed, unchanged⟩ := insertAtPoint_of_error content fails
    refine Or.inl ⟨error, fails, recoverable, ⟨error.message, ?_⟩, ?_⟩
    · refine ignoring_of_error ?_ recoverable
      exact congrArg (Except.map _) failed
    · rw [insertHere_workspace]
      exact unchanged
  · obtain ⟨element, final, edits, laidFinal, turns, places⟩ :=
      laid.exists_insertInstruction names.stands names.within content
    rw [← names.rungNumber_eq, ← names.position_eq, ← names.branchId_eq] at edits
    obtain ⟨succeeded, drawn⟩ := insertAtPoint_of_ok resolves edits
    obtain ⟨outcome, drawing⟩ := ignoring_takeAs_of_ok workspace
      (fun entry => .inserted entry.1 entry.2.position) succeeded
    refine Or.inr ⟨target, resolves, index, gap, element, names.rungNumber_eq, names.position_eq,
      ?_, ?_, ?_⟩
    · rw [names.position_eq, ← places.position_eq]
      exact outcome
    · rw [insertHere, drawing, drawn]
      exact turns
    · rw [insertHere, drawing, drawn, names.branchId_eq]
      exact places

omit [ExactScalar α] in
theorem dropOn_of_ok {drawing final : Drawing α} (source : Selection) {target : InsertionTarget}
    {element : Element}
    (moves : drawing.apply (.moveElement source.address
      ⟨target.rungNumber, target.position, target.branchId, some target.branchLevel⟩) =
        (.ok element, final)) :
    (Editor.dropOn drawing source.address target).outcome = .ok element ∧
      (Editor.dropOn drawing source.address target).drawing = final := by
  unfold Editor.dropOn Editor.perform Editor.performAs
  rw [Editor.report_outcome, Editor.report_drawing, moves]
  exact ⟨rfl, rfl⟩

/-- Where something can be dropped, the dragged instruction is; elsewhere nothing happens. -/
theorem release_cases (laid : workspace.drawing.LaidOut)
    (dragging : workspace.session.mode = .drag) {source : Selection}
    (selected : workspace.session.selection = some source) {origin place : Nat}
    {content : Instruction} (names : source.Names workspace.drawing.routine origin place content)
    (x y : α) :
    (workspace.release x y).workspace.session.mode = .tool .view ∧
      ((∃ error, workspace.drawing.resolveInsertion x y = .error error ∧
          error.recoverable = true ∧ workspace.Ignores (workspace.release x y)) ∨
        ∃ target, workspace.drawing.resolveInsertion x y = .ok target ∧
          workspace.Moves origin place content (workspace.release x y) target) := by
  rw [release_eq dragging selected]
  rcases laid.resolveInsertion_cases x y with
    ⟨error, fails, recoverable⟩ | ⟨target, index, rung, gap, resolves, found⟩
  · rw [fails]
    refine ⟨?_, Or.inl ⟨error, rfl, recoverable, ⟨error.message, ?_⟩, ?_⟩⟩
    · rw [ignoring_workspace]
      rfl
    · exact ignoring_of_error rfl recoverable
    · rw [ignoring_workspace]
      rfl
  · rw [resolves]
    obtain ⟨element, final, edits, _, turns, places⟩ :=
      laid.exists_moveElement names.stands found.stands found.within (some target.branchLevel)
    rw [← found.rungNumber_eq, ← found.position_eq, ← found.branchId_eq, ← names.rungNumber_eq,
      ← names.position_eq] at edits
    obtain ⟨succeeded, drawn⟩ := dropOn_of_ok source edits
    obtain ⟨outcome, drawing⟩ := ignoring_takeAs_of_ok workspace.dropped
      (fun element => .moved target.rungNumber element.position) succeeded
    refine ⟨?_, Or.inr ⟨target, rfl, index, gap, element, found.rungNumber_eq, found.position_eq,
      ?_, ?_, ?_⟩⟩
    · rw [ignoring_workspace]
      change (workspace.dropped.called (.edit _)).session.mode = _
      rw [called_eq]
      exact mode_afterEdit rfl _
    · rw [← places.position_eq]
      exact outcome
    · dsimp only
      rw [drawing, drawn]
      exact turns
    · dsimp only
      rw [drawing, drawn, found.branchId_eq]
      exact places

/--
A click that inserts and a release that drops do what the hover before them has shown.  Where
a gap is shown, the instruction is put into this gap, on the rail that is shown; where none is
shown, nothing happens.  The session is viewing after that.  A drag is the drag of an
instruction as long as the session listens, and also if it does not but the routine is still
such that an instruction stands where the selection says.
-/
theorem click_follows_hover {config : LayoutConfig α} {instructions : Category → Instruction}
    (reachable : workspace.Reachable config instructions) (x y : α) :
    (∀ mode category, workspace.session.mode = .tool mode → mode.category? = some category →
      workspace.FollowsHover x y (workspace.click x y)
        (workspace.Inserts (instructions category) (workspace.click x y))) ∧
    (workspace.session.mode = .drag →
      workspace.click x y = workspace.release x y ∧
      ∃ source, workspace.session.selection = some source ∧
        (workspace.session.listening = true → ∃ origin place content,
          source.Names workspace.drawing.routine origin place content) ∧
        ∀ origin place content, source.Names workspace.drawing.routine origin place content →
          workspace.FollowsHover x y (workspace.release x y)
            (workspace.Moves origin place content (workspace.release x y))) := by
  have sound := reachable.isSound
  refine ⟨fun mode category isMode inserts => ?_, fun dragging => ?_⟩
  · have edits : workspace.session.mode ≠ .tool .view := by
      rw [isMode]
      rintro ⟨⟩
      cases inserts
    have clicks : workspace.click x y = (workspace.withSession
        { workspace.session with mode := .tool .view }).insertHere x y (instructions category) := by
      rw [← sound.instructions_eq]
      exact click_of_category isMode inserts x y
    obtain ⟨views, shown⟩ := @insertHere_cases _ _ (workspace.withSession
      { workspace.session with mode := .tool .view }) _ sound.laid rfl x y (instructions category)
    rw [clicks]
    refine ⟨views, ?_⟩
    rcases shown with ⟨error, fails, recoverable, ignores⟩ | ⟨target, resolves, inserts⟩
    · exact Or.inr ⟨hover_of_error edits fails recoverable, ignores⟩
    · exact Or.inl ⟨target, hover_of_ok edits resolves, inserts⟩
  · have edits : workspace.session.mode ≠ .tool .view := by simp [dragging]
    obtain ⟨source, selected⟩ := Option.isSome_iff_exists.mp (sound.dragging dragging)
    refine ⟨?_, source, selected, fun listens => sound.selected listens source selected, ?_⟩
    · unfold click
      rw [dragging]
    · intro origin place content names
      obtain ⟨views, shown⟩ := release_cases sound.laid dragging selected names x y
      refine ⟨views, ?_⟩
      rcases shown with ⟨error, fails, recoverable, ignores⟩ | ⟨target, resolves, moves⟩
      · exact Or.inr ⟨hover_of_error edits fails recoverable, ignores⟩
      · exact Or.inl ⟨target, hover_of_ok edits resolves, moves⟩

/-- A session on a rung of three instructions. -/
def sampleSession (calls : List (SessionCall Rat)) : Workspace Rat :=
  (Workspace.empty .standard Instruction.placeholder).run
    (.editor (.load ⟨none, [⟨some "XIC(A)XIC(B)OTE(C);", none⟩]⟩) :: calls)

theorem reachable_sampleSession (calls : List (SessionCall Rat)) :
    (sampleSession calls).Reachable .standard Instruction.placeholder :=
  ReachableBy.run .new _

/-- A contact is put behind the first one, and the first one is dropped at the end. -/
theorem click_follows_hover_of_sample :
    (sampleSession [.setMode .insertContact]).FollowsHover 110 70
      ((sampleSession [.setMode .insertContact]).click 110 70)
      ((sampleSession [.setMode .insertContact]).Inserts (Instruction.placeholder .contact)
        ((sampleSession [.setMode .insertContact]).click 110 70)) ∧
    ∃ origin place content,
      (sampleSession [.click 70 70, .beginDrag]).FollowsHover 300 70
        ((sampleSession [.click 70 70, .beginDrag]).release 300 70)
        ((sampleSession [.click 70 70, .beginDrag]).Moves origin place content
          ((sampleSession [.click 70 70, .beginDrag]).release 300 70)) := by
  constructor
  · exact (click_follows_hover (reachable_sampleSession _) 110 70).1 .insertContact .contact
      (by decide +kernel) rfl
  · obtain ⟨_, source, selected, names, follows⟩ :=
      (click_follows_hover (reachable_sampleSession [.click 70 70, .beginDrag]) 300 70).2
        (by decide +kernel)
    obtain ⟨origin, place, content, isSelected⟩ := names (by decide +kernel)
    exact ⟨origin, place, content, follows origin place content isSelected⟩

/--
A session that has stopped listening keeps the address of its selection when a branch is put
around the selected instruction.  A drag still shows a gap then, but there is a marker at the
address, and the release fails.
-/
theorem not_release_follows_hover :
    ∃ before dragging : Workspace Rat,
      before.Reachable .standard Instruction.placeholder ∧
      before.session.beginDrag.1 = true ∧ dragging = before.after .beginDrag ∧
      dragging.session.mode = .drag ∧ dragging.drawing.routine = before.drawing.routine ∧
      (∃ target, dragging.hover 70 70 = .ok (some target)) ∧
      ∃ error, (dragging.release 70 70).outcome = .error error := by
  have evaluated : let before := sampleSession [.click 140 70, .dispose,
      .editor (.edit (.insertBranch (.ofNat 0) (.ofNat 1) (.ofNat 2) none))]
      before.session.beginDrag.1 = true ∧ (before.after .beginDrag).session.mode = .drag ∧
        ((before.after .beginDrag).hover 70 70).toOption.join.isSome = true ∧
        ((before.after .beginDrag).release 70 70).outcome.toOption.isNone = true := by
    decide +kernel
  obtain ⟨begins, drags, shown, failed⟩ := evaluated
  obtain ⟨target, isTarget⟩ := Option.isSome_iff_exists.mp shown
  have hovered := toOption_eq_some_iff.mp (Option.join_eq_some_iff.mp isTarget)
  exact ⟨_, _, reachable_sampleSession _, begins, rfl, drags, rfl, ⟨target, hovered⟩,
    exists_error_of_isNone failed⟩

end Workspace
end LadderDiagram
