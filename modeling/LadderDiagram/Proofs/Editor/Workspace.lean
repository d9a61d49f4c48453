import LadderDiagram.Editor.Session
import LadderDiagram.Proofs.Drawing.Resolve
import LadderDiagram.Proofs.Drawing.Placement
import LadderDiagram.Proofs.Editor.Failure

/-!
# Runs of a session

A session is used through its own calls, and the editor below it may be called directly in
between.  Whatever is called, the drawing stays laid out, and the selection of a session that
listens names an instruction: it is made by pointing at one, and the layout that follows an
edit drops it.
-/

namespace LadderDiagram

/-- A call of a session, or of the editor on which it works. -/
inductive SessionCall (α : Type)
  | editor (call : Editor.Call α)
  | setMode (mode : ToolMode)
  | cancel
  | click (x y : α)
  | beginDrag
  | release (x y : α)
  | copySelection
  | paste (x y : α)
  | dispose

/-- A selection names a place of a routine at which an instruction stands. -/
structure Selection.Names (selection : Selection) (routine : Routine) (index place : Nat)
    (content : Instruction) : Prop where
  rungNumber_eq : selection.rungNumber = .ofNat index
  position_eq : selection.position = .ofNat place
  stands : routine.draftAt? index place = some (.instruction content)

namespace Session

variable {β : Type}

/-- The session once it has heard of a layout. -/
def afterLayout (session : Session) : Session :=
  if session.listening then
    { session with
      selection := none
      mode := if session.mode = .drag then .tool .view else session.mode }
  else session

/-- What a session makes of the outcome of an edit: a success is followed by a layout. -/
def afterEdit (session : Session) : Except LadderError β → Session
  | .ok _ => session.afterLayout
  | .error _ => session

end Session

namespace Workspace

variable {α β : Type} [Scalar α] {workspace : Workspace α}

/-- The editor is called, and the session hears what it reports. -/
def called (workspace : Workspace α) : Editor.Call α → Workspace α
  | .edit change => (workspace.take (Editor.perform workspace.drawing change)).workspace
  | .insertAtPoint x y content =>
      (workspace.take (Editor.insertAtPoint workspace.drawing x y content)).workspace
  | .load source => (workspace.take (Editor.load workspace.drawing source)).workspace

def after (workspace : Workspace α) : SessionCall α → Workspace α
  | .editor call => workspace.called call
  | .setMode mode => workspace.withSession (workspace.session.setMode (.tool mode))
  | .cancel => workspace.withSession workspace.session.cancel
  | .click x y => (workspace.click x y).workspace
  | .beginDrag => workspace.withSession workspace.session.beginDrag.2
  | .release x y => (workspace.release x y).workspace
  | .copySelection => workspace.copySelection.workspace
  | .paste x y => (workspace.paste x y).workspace
  | .dispose => workspace.withSession workspace.session.dispose

/-- The workspaces that a new one comes to by calls that are allowed in it. -/
inductive ReachableBy (allows : Workspace α → SessionCall α → Prop) (config : LayoutConfig α)
    (instructions : Category → Instruction) : Workspace α → Prop
  | new : ReachableBy allows config instructions (.empty config instructions)
  | called {workspace : Workspace α} (call : SessionCall α) :
      ReachableBy allows config instructions workspace → allows workspace call →
        ReachableBy allows config instructions (workspace.after call)

/-- The workspaces that a new one comes to by any calls. -/
abbrev Reachable (config : LayoutConfig α) (instructions : Category → Instruction)
    (workspace : Workspace α) : Prop :=
  ReachableBy (fun _ _ => True) config instructions workspace

/-- The workspace after some calls, one after the other. -/
def run (workspace : Workspace α) (calls : List (SessionCall α)) : Workspace α :=
  calls.foldl after workspace

theorem ReachableBy.run {config : LayoutConfig α} {instructions : Category → Instruction}
    (reachable : workspace.Reachable config instructions) (calls : List (SessionCall α)) :
    (workspace.run calls).Reachable config instructions := by
  induction calls generalizing workspace with
  | nil => exact reachable
  | cons call rest ih => exact ih (.called call reachable trivial)

/-- What holds of a workspace whatever has been called. -/
structure IsSound (instructions : Category → Instruction) (workspace : Workspace α) : Prop where
  laid : workspace.drawing.LaidOut
  instructions_eq : workspace.session.instructions = instructions
  dragging : workspace.session.mode = .drag → workspace.session.selection.isSome
  selected : workspace.session.listening = true → ∀ selection,
    workspace.session.selection = some selection →
      ∃ index place content, selection.Names workspace.drawing.routine index place content

/-! ### What a turn leaves -/

omit [Scalar α] in
/-- Ignoring an error changes nothing but the answer. -/
theorem ignoring_workspace (turn : Turn α SessionOutcome) :
    (ignoring turn).workspace = turn.workspace := by
  unfold ignoring
  split
  next => rfl
  next =>
    split
    next => rfl
    next => rfl

theorem insertHere_workspace (x y : α) (content : Instruction) :
    (workspace.insertHere x y content).workspace = workspace.called (.insertAtPoint x y content) :=
  ignoring_workspace _

theorem captureAnchor_workspace (workspace : Workspace α) (x y : α) :
    (∃ error, workspace.drawing.resolveInsertion x y = .error error ∧
        (workspace.captureAnchor x y).workspace = workspace) ∨
      ∃ anchor, workspace.drawing.resolveInsertion x y = .ok anchor ∧
        (workspace.captureAnchor x y).workspace =
          workspace.withSession
            { workspace.session with anchor := some anchor, mode := .connectBranch } := by
  unfold captureAnchor
  rw [ignoring_workspace]
  cases workspace.drawing.resolveInsertion x y with
  | error error => exact Or.inl ⟨error, rfl, rfl⟩
  | ok anchor => exact Or.inr ⟨anchor, rfl, rfl⟩

/-- The second end of a branch ends the connecting, with an edit or without one. -/
theorem connect_workspace (workspace : Workspace α) (x y : α) :
    (workspace.connect x y).workspace = workspace.withSession workspace.session.cancel ∨
      ∃ change, (workspace.connect x y).workspace =
        (workspace.withSession workspace.session.cancel).called (.edit change) := by
  unfold connect
  dsimp only
  cases workspace.session.anchor with
  | none => exact Or.inl rfl
  | some anchor =>
      dsimp only
      rw [ignoring_workspace]
      cases (workspace.withSession workspace.session.cancel).drawing.resolveInsertion x y with
      | error error => exact Or.inl rfl
      | ok target =>
          dsimp only
          split
          next => exact Or.inl rfl
          next => exact Or.inr ⟨_, rfl⟩

/-- The workspace with its drag ended. -/
def dropped (workspace : Workspace α) : Workspace α :=
  workspace.withSession { workspace.session with mode := .tool .view, selection := none }

theorem release_eq {source : Selection} (dragging : workspace.session.mode = .drag)
    (selected : workspace.session.selection = some source) (x y : α) :
    workspace.release x y =
      ignoring (match workspace.drawing.resolveInsertion x y with
        | .error error => workspace.dropped.quiet (.error error)
        | .ok target =>
            workspace.dropped.takeAs (Editor.dropOn workspace.drawing source.address target)
              fun element => .moved target.rungNumber element.position) := by
  unfold release
  rw [dragging, selected]
  rfl

theorem release_workspace (workspace : Workspace α) (x y : α) :
    (workspace.release x y).workspace = workspace ∨
      (workspace.release x y).workspace = workspace.dropped ∨
      ∃ change, (workspace.release x y).workspace = workspace.dropped.called (.edit change) := by
  by_cases dragging : workspace.session.mode = .drag
  · cases selected : workspace.session.selection with
    | none =>
        left
        unfold release
        rw [dragging, selected]
        rfl
    | some source =>
        right
        rw [release_eq dragging selected, ignoring_workspace]
        cases workspace.drawing.resolveInsertion x y with
        | error error => exact Or.inl rfl
        | ok target => exact Or.inr ⟨_, rfl⟩
  · left
    unfold release
    split
    next isDrag _ => exact absurd isDrag dragging
    next => rfl

/-- A click is one of the things that the modes are for. -/
theorem click_cases (workspace : Workspace α) (x y : α) :
    workspace.click x y = workspace.connect x y ∧ workspace.session.mode = .connectBranch ∨
    workspace.click x y = workspace.release x y ∧ workspace.session.mode = .drag ∨
    workspace.click x y = workspace.captureAnchor x y ∧
      workspace.session.mode = .tool .insertBranch ∨
    (∃ mode category, workspace.session.mode = .tool mode ∧ mode.category? = some category ∧
      workspace.click x y =
        (workspace.withSession { workspace.session with mode := .tool .view }).insertHere x y
          (workspace.session.instructions category)) ∨
    workspace.click x y = workspace.select x y ∧ workspace.session.mode ≠ .drag := by
  unfold click
  cases mode : workspace.session.mode with
  | connectBranch => exact Or.inl ⟨rfl, rfl⟩
  | drag => exact Or.inr (Or.inl ⟨rfl, rfl⟩)
  | custom name => exact Or.inr (Or.inr (Or.inr (Or.inr ⟨rfl, nofun⟩)))
  | tool own =>
      cases own with
      | insertBranch => exact Or.inr (Or.inr (Or.inl ⟨rfl, rfl⟩))
      | view => exact Or.inr (Or.inr (Or.inr (Or.inr ⟨rfl, nofun⟩)))
      | insertContact => exact Or.inr (Or.inr (Or.inr (Or.inl ⟨_, .contact, rfl, rfl, rfl⟩)))
      | insertCoil => exact Or.inr (Or.inr (Or.inr (Or.inl ⟨_, .coil, rfl, rfl, rfl⟩)))
      | insertBlock => exact Or.inr (Or.inr (Or.inr (Or.inl ⟨_, .block, rfl, rfl, rfl⟩)))

/-- In a mode that inserts, a click goes back to viewing and inserts. -/
theorem click_of_category {mode : ToolMode} {category : Category}
    (isMode : workspace.session.mode = .tool mode) (inserts : mode.category? = some category)
    (x y : α) :
    workspace.click x y =
      (workspace.withSession { workspace.session with mode := .tool .view }).insertHere x y
        (workspace.session.instructions category) := by
  unfold click
  rw [isMode]
  cases mode with
  | view => cases inserts
  | insertBranch => cases inserts
  | insertContact =>
      cases inserts
      rfl
  | insertCoil =>
      cases inserts
      rfl
  | insertBlock =>
      cases inserts
      rfl

/-! ### Calls keep workspaces sound -/

theorem take_report (action : String) (arguments : List (String × Json))
    (result : Except LadderError β × Drawing α) :
    (workspace.take (Editor.report action arguments result)).workspace =
      ⟨result.2, workspace.session.afterEdit result.1⟩ := by
  rcases result with ⟨error | answer, drawing⟩
  · rfl
  · rfl


/-- A call of the editor fails and leaves the session alone, or the session hears of a layout. -/
theorem called_eq (call : Editor.Call α) :
    workspace.called call =
      ⟨(call.on workspace.drawing).2,
        workspace.session.afterEdit (call.on workspace.drawing).1⟩ := by
  cases call with
  | edit change =>
      rw [called, Editor.perform, Editor.performAs, take_report, Editor.on_edit]
      rcases workspace.drawing.apply change with ⟨error | answer, final⟩
      · rfl
      · rfl
  | insertAtPoint x y content =>
      rw [called, Editor.insertAtPoint, take_report, Editor.Call.on]
      simp only [Editor.insertAtPoint, Editor.report_outcome, Editor.report_drawing]
      cases workspace.drawing.resolveInsertion x y with
      | error error => rfl
      | ok target =>
          dsimp only
          rcases Editor.insertAt workspace.drawing target content with ⟨error | answer, final⟩
          · rfl
          · rfl
  | load source =>
      rw [called, Editor.Call.on, Editor.load]
      cases Routine.ofSource source with
      | error error => rfl
      | ok routine =>
          dsimp only
          rcases Drawing.ofRoutine workspace.drawing.config routine with ⟨error | answer, final⟩
          · rfl
          · rfl

section Sound

variable {instructions : Category → Instruction}

/-- Hearing of a layout drops the selection and ends the drag. -/
theorem IsSound.afterLayout (sound : workspace.IsSound instructions) {drawing : Drawing α}
    (laid : drawing.LaidOut) :
    IsSound instructions ⟨drawing, workspace.session.afterLayout⟩ := by
  unfold Session.afterLayout
  by_cases listens : workspace.session.listening = true
  · rw [if_pos listens]
    refine ⟨laid, sound.instructions_eq, fun dragging => ?_, fun _ selection selected => ?_⟩
    · dsimp only at dragging
      split at dragging
      next => cases dragging
      next stays => exact absurd dragging stays
    · cases selected
  · rw [if_neg listens]
    exact ⟨laid, sound.instructions_eq, sound.dragging, fun still => absurd still listens⟩

/-- A session that drags nothing may select what is drawn, or keep its selection. -/
theorem IsSound.withSession (sound : workspace.IsSound instructions) {session : Session}
    (same : session.instructions = workspace.session.instructions)
    (still : session.mode = .drag → session.selection.isSome)
    (selected : session.listening = true → ∀ selection, session.selection = some selection →
      workspace.session.listening = true ∧ workspace.session.selection = some selection ∨
        ∃ index place content,
          selection.Names workspace.drawing.routine index place content) :
    (workspace.withSession session).IsSound instructions :=
  ⟨sound.laid, same.trans sound.instructions_eq, still, fun listens selection isSelected =>
    (selected listens selection isSelected).elim
      (fun kept => sound.selected kept.1 selection kept.2) id⟩

theorem IsSound.select (sound : workspace.IsSound instructions)
    (still : workspace.session.mode ≠ .drag) (x y : α) :
    (workspace.select x y).workspace.IsSound instructions := by
  refine sound.withSession rfl (fun dragging => absurd dragging still)
    fun _ selection selected => Or.inr ?_
  obtain ⟨placed, found, isInstruction⟩ := Option.bind_eq_some_iff.mp selected
  obtain ⟨index, rung, place, stands, isPlaced, number, position⟩ :=
    sound.laid.exists_place_of_elementAt found
  split at isInstruction
  next kind =>
    cases isInstruction
    cases draft : placed.element.draft with
    | instruction content =>
        refine ⟨index, place, content, number, position, ?_⟩
        rw [Routine.draftAt?, Routine.sources_getElem? stands, Option.bind_some,
          drafts_getElem?, isPlaced, Option.map_some, draft]
    | branchStart id => simp [LayoutElement.kind, Element.kind, draft, Draft.kind] at kind
    | branchNext id => simp [LayoutElement.kind, Element.kind, draft, Draft.kind] at kind
    | branchEnd id => simp [LayoutElement.kind, Element.kind, draft, Draft.kind] at kind
  next => cases isInstruction

variable [ExactScalar α]

theorem IsSound.called (sound : workspace.IsSound instructions) (call : Editor.Call α) :
    (workspace.called call).IsSound instructions := by
  have steps := Editor.steps_on sound.laid call
  rw [called_eq]
  cases outcome : (call.on workspace.drawing).1 with
  | ok answer => exact sound.afterLayout steps.laidOut
  | error error =>
      have sameRoutine := steps.routine_eq error outcome
      refine ⟨steps.laidOut, sound.instructions_eq, sound.dragging, ?_⟩
      dsimp only
      rw [sameRoutine]
      exact sound.selected

theorem IsSound.release (sound : workspace.IsSound instructions) (x y : α) :
    (workspace.release x y).workspace.IsSound instructions := by
  have dropped : workspace.dropped.IsSound instructions :=
    sound.withSession rfl nofun nofun
  rcases release_workspace workspace x y with same | same | ⟨change, same⟩
  · rw [same]
    exact sound
  · rw [same]
    exact dropped
  · rw [same]
    exact dropped.called (.edit change)

theorem IsSound.click (sound : workspace.IsSound instructions) (x y : α) :
    (workspace.click x y).workspace.IsSound instructions := by
  have viewing {session : Session} (same : session = { workspace.session with
      mode := .tool .view, anchor := session.anchor }) :
      (workspace.withSession session).IsSound instructions := by
    rw [same]
    exact sound.withSession rfl nofun fun listens selection selected =>
      Or.inl ⟨listens, selected⟩
  rcases workspace.click_cases x y with
    ⟨same, _⟩ | ⟨same, _⟩ | ⟨same, mode⟩ | ⟨mode, category, _, _, same⟩ | ⟨same, still⟩
  · rw [same]
    rcases connect_workspace workspace x y with same | ⟨change, same⟩
    · rw [same]
      exact viewing rfl
    · rw [same]
      exact (viewing rfl).called (.edit change)
  · rw [same]
    exact sound.release x y
  · rw [same]
    rcases captureAnchor_workspace workspace x y with
      ⟨_, _, same⟩ | ⟨anchor, _, same⟩
    · rw [same]
      exact sound
    · rw [same]
      exact sound.withSession rfl nofun fun listens selection selected =>
        Or.inl ⟨listens, selected⟩
  · rw [same, insertHere_workspace]
    exact (viewing rfl).called _
  · rw [same]
    exact sound.select still x y

theorem IsSound.after (sound : workspace.IsSound instructions) (call : SessionCall α) :
    (workspace.after call).IsSound instructions := by
  cases call with
  | editor call => exact sound.called call
  | setMode mode => exact sound.withSession rfl nofun nofun
  | cancel =>
      exact sound.withSession rfl nofun fun listens selection selected =>
        Or.inl ⟨listens, selected⟩
  | click x y => exact sound.click x y
  | beginDrag =>
      change (workspace.withSession _).IsSound instructions
      unfold Session.beginDrag
      split
      next begins =>
        obtain ⟨_, isSelected⟩ := Bool.and_eq_true_iff.mp begins
        exact sound.withSession rfl (fun _ => isSelected) fun listens selection selected =>
          Or.inl ⟨listens, selected⟩
      next => exact sound
  | release x y => exact sound.release x y
  | copySelection =>
      change workspace.copySelection.workspace.IsSound instructions
      unfold copySelection
      split
      next => exact sound
      next =>
        dsimp only
        split
        next => exact sound
        next =>
          split
          next =>
            exact sound.withSession rfl sound.dragging fun listens selection selected =>
              Or.inl ⟨listens, selected⟩
          next => exact sound
  | paste x y =>
      change (workspace.paste x y).workspace.IsSound instructions
      unfold paste
      split
      next => exact sound
      next =>
        rw [insertHere_workspace]
        exact sound.called _
  | dispose => exact sound.withSession rfl sound.dragging nofun

theorem ReachableBy.isSound {allows : Workspace α → SessionCall α → Prop}
    {config : LayoutConfig α} (reachable : ReachableBy allows config instructions workspace) :
    workspace.IsSound instructions := by
  induction reachable with
  | new => exact ⟨Editor.laidOut_blank config, rfl, nofun, nofun⟩
  | called call _ _ sound => exact sound.after call

end Sound

end Workspace
end LadderDiagram
