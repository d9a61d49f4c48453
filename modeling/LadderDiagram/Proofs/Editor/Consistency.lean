import LadderDiagram.Proofs.Editor.Preview

/-!
# Modes, anchors and selections

A session keeps three things that have to agree: its mode, the first end of a branch and the
selection.  A call that changes one of them changes the others with it, also when the call
ends with an edit and hears of the layout that follows.  So at any time the first end is kept
just while the second one is awaited, a drag has something to drag, and the selection names
an instruction that is there, with which nothing that looks at it can fail.
-/

namespace LadderDiagram

namespace Session

variable {β : Type}

/-- The first end of a branch is kept just while the second one is awaited. -/
def Awaits (session : Session) : Prop :=
  session.mode = .connectBranch ↔ session.anchor.isSome = true

theorem awaits_of_none {session : Session} (settled : session.mode ≠ .connectBranch)
    (none : session.anchor = none) : session.Awaits := by
  unfold Awaits
  rw [none]
  exact iff_of_false settled nofun

theorem Awaits.anchor_eq_none {session : Session} (awaits : session.Awaits)
    (settled : session.mode ≠ .connectBranch) : session.anchor = none := by
  rw [← Option.not_isSome_iff_eq_none]
  exact fun pending => settled (awaits.mpr pending)

/-- A layout ends a drag, and a drag has no first end of a branch. -/
theorem Awaits.afterEdit {session : Session} (awaits : session.Awaits)
    (outcome : Except LadderError β) : (session.afterEdit outcome).Awaits := by
  unfold Session.afterEdit Session.afterLayout
  cases outcome with
  | error error => exact awaits
  | ok answer =>
      dsimp only
      split
      next listens =>
        by_cases dragging : session.mode = .drag
        · refine awaits_of_none ?_ (awaits.anchor_eq_none ?_)
          · rw [if_pos dragging]
            nofun
          · rw [dragging]
            nofun
        · rw [if_neg dragging]
          exact awaits
      next => exact awaits

end Session

/-- The positions of the elements of a layout that are marked as selected. -/
def LayoutResult.marked {α : Type} (layout : LayoutResult α) : List Address :=
  (layout.elements.filter (·.selected)).map (·.position)

/-! ### Layouts and the selection -/

mutual

/-- The recursion over a tree marks nothing. -/
theorem RailTree.selected_placed (config : LayoutConfig Rat) (input : RungInput Rat)
    (site : RailSite) (position : Nat) (last : Option Rat) :
    ∀ tree : RailTree, ∀ placed ∈ tree.placed config input site position last,
      placed.selected = false
  | .nil => fun _ member => absurd member List.not_mem_nil
  | .instruction _ rest =>
      List.forall_mem_cons.mpr ⟨rfl, rest.selected_placed config input site _ _⟩
  | .branch _ first further rest => by
      rw [RailTree.placed]
      simp only [List.forall_mem_cons, List.forall_mem_append]
      exact ⟨rfl, first.selected_placed config input _ _ _,
        further.selected_placed config input _ _, rfl,
        rest.selected_placed config input _ _ _⟩

theorem FurtherRails.selected_placed (config : LayoutConfig Rat) (input : RungInput Rat)
    (site : RailSite) (position : Nat) :
    ∀ rails : FurtherRails, ∀ placed ∈ rails.placed config input site position,
      placed.selected = false
  | .nil => fun _ member => absurd member List.not_mem_nil
  | .rail _ own others => by
      rw [FurtherRails.placed]
      simp only [List.forall_mem_cons, List.forall_mem_append]
      exact ⟨rfl, own.selected_placed config input _ _ _,
        others.selected_placed config input _ _⟩

end

namespace Drawing

variable {α : Type} [Scalar α] {drawing : Drawing α} {index : Nat} {rung : Rung}
  {layout : LayoutResult α}

theorem Draws.layoutAt_eq (draws : drawing.Draws index rung layout) :
    drawing.layoutAt (.ofNat index) = .ok layout := by
  unfold layoutAt
  rw [Address.toNat?_ofNat, Option.bind_some, draws.cached]

theorem Draws.not_selected (laid : drawing.LaidOut) (draws : drawing.Draws index rung layout)
    {placed : LayoutElement α} (member : placed ∈ layout.elements) : placed.selected = false := by
  obtain ⟨tree, _, _, same⟩ := draws.exists_shape laid
  have inShape : placed.shape ∈ layout.shape.elements := List.mem_map_of_mem member
  rw [same] at inShape
  obtain ⟨own, isOwn, sameShape⟩ := List.mem_map.mp inShape
  exact (congrArg LayoutElement.selected sameShape).symm.trans
    (tree.selected_placed _ _ _ _ _ own isOwn)

/-- The positions on a rung are the places of its sequence. -/
theorem Draws.map_position_eq (laid : drawing.LaidOut)
    (draws : drawing.Draws index rung layout) :
    layout.elements.map (·.position) = (List.range rung.elements.length).map Address.ofNat := by
  rw [← positions_of_annotate (laid.sound.rungAt draws.stands).annotated,
    ← draws.map_element_eq laid, List.map_map]
  rfl

end Drawing

namespace Workspace

variable {α : Type} [Scalar α] {workspace : Workspace α}

/-! ### What a session keeps -/

theorem awaits_called (awaits : workspace.session.Awaits) (call : Editor.Call α) :
    (workspace.called call).session.Awaits := by
  rw [called_eq]
  exact awaits.afterEdit _

theorem release_of_ne_drag (still : workspace.session.mode ≠ .drag) (x y : α) :
    (workspace.release x y).workspace = workspace := by
  unfold release
  split
  next isDrag _ => exact absurd isDrag still
  next => rfl

theorem awaits_release (awaits : workspace.session.Awaits) (x y : α) :
    (workspace.release x y).workspace.session.Awaits := by
  by_cases dragging : workspace.session.mode = .drag
  · have none : workspace.session.anchor = none :=
      awaits.anchor_eq_none (by rw [dragging]; nofun)
    have dropped : workspace.dropped.session.Awaits := Session.awaits_of_none nofun none
    rcases release_workspace workspace x y with same | same | ⟨change, same⟩
    · rw [same]
      exact awaits
    · rw [same]
      exact dropped
    · rw [same]
      exact awaits_called dropped _
  · rw [release_of_ne_drag dragging]
    exact awaits

theorem awaits_connect (workspace : Workspace α) (x y : α) :
    (workspace.connect x y).workspace.session.Awaits := by
  have cancelled : (workspace.withSession workspace.session.cancel).session.Awaits :=
    Session.awaits_of_none nofun rfl
  rcases connect_workspace workspace x y with same | ⟨change, same⟩
  · rw [same]
    exact cancelled
  · rw [same]
    exact awaits_called cancelled _

theorem awaits_click (awaits : workspace.session.Awaits) (x y : α) :
    (workspace.click x y).workspace.session.Awaits := by
  rcases workspace.click_cases x y with
    ⟨same, _⟩ | ⟨same, _⟩ | ⟨same, _⟩ | ⟨mode, category, isMode, _, same⟩ | ⟨same, _⟩
  · rw [same]
    exact workspace.awaits_connect x y
  · rw [same]
    exact awaits_release awaits x y
  · rw [same]
    rcases captureAnchor_workspace workspace x y with ⟨_, _, same⟩ | ⟨anchor, _, same⟩
    · rw [same]
      exact awaits
    · rw [same]
      exact iff_of_true rfl rfl
  · rw [same, insertHere_workspace]
    have none : workspace.session.anchor = none := awaits.anchor_eq_none (by rw [isMode]; nofun)
    have viewing : (workspace.withSession
        { workspace.session with mode := .tool .view }).session.Awaits :=
      Session.awaits_of_none nofun none
    exact awaits_called viewing _
  · rw [same]
    exact awaits

theorem awaits_after (awaits : workspace.session.Awaits) (call : SessionCall α) :
    (workspace.after call).session.Awaits := by
  cases call with
  | editor call => exact awaits_called awaits call
  | setMode mode => exact Session.awaits_of_none nofun rfl
  | cancel => exact Session.awaits_of_none nofun rfl
  | click x y => exact awaits_click awaits x y
  | beginDrag =>
      change workspace.session.beginDrag.2.Awaits
      unfold Session.beginDrag
      split
      next begins =>
        have views : workspace.session.mode = .tool .view :=
          of_decide_eq_true (Bool.and_eq_true_iff.mp begins).1
        exact Session.awaits_of_none nofun (awaits.anchor_eq_none (by rw [views]; nofun))
      next => exact awaits
  | release x y => exact awaits_release awaits x y
  | copySelection =>
      change workspace.copySelection.workspace.session.Awaits
      unfold copySelection
      split
      next => exact awaits
      next =>
        dsimp only
        split
        next => exact awaits
        next =>
          split
          next => exact awaits
          next => exact awaits
  | paste x y =>
      change (workspace.paste x y).workspace.session.Awaits
      unfold paste
      split
      next => exact awaits
      next =>
        rw [insertHere_workspace]
        exact awaits_called awaits _
  | dispose => exact awaits

theorem ReachableBy.awaits {allows : Workspace α → SessionCall α → Prop}
    {config : LayoutConfig α} {instructions : Category → Instruction}
    (reachable : ReachableBy allows config instructions workspace) :
    workspace.session.Awaits := by
  induction reachable with
  | new => exact Session.awaits_of_none nofun rfl
  | called call _ _ awaits => exact awaits_after awaits call

/-! ### What looks at the selection -/

omit [Scalar α] in
/-- A selected instruction can be copied. -/
theorem copySelection_of_names {selection : Selection}
    (selected : workspace.session.selection = some selection) {index place : Nat}
    {content : Instruction}
    (names : selection.Names workspace.drawing.routine index place content) :
    workspace.copySelection.outcome = .ok true ∧
      workspace.copySelection.workspace.session.clipboard = some content := by
  obtain ⟨rung, stands, drafted⟩ := Routine.exists_of_draftAt? names.stands
  obtain ⟨element, isInstruction, found⟩ := rung.exists_elementAt drafted
  have entry : rung.elementAt selection.address.position = .ok element := by
    change rung.elementAt selection.position = _
    rw [names.position_eq, found]
  have isRung : workspace.drawing.routine.rungAt selection.address.rung = .ok (index, rung) := by
    change workspace.drawing.routine.rungAt selection.rungNumber = _
    rw [names.rungNumber_eq, Routine.rungAt_of_getElem? stands]
  unfold copySelection
  rw [selected]
  dsimp only
  rw [isRung, ok_bind]
  dsimp only
  rw [entry]
  dsimp only
  rw [isInstruction]
  exact ⟨rfl, rfl⟩

omit [Scalar α] in
theorem copySelection_of_none (none : workspace.session.selection = none) :
    workspace.copySelection.outcome = .ok false := by
  unfold copySelection
  rw [none]
  rfl

/-- The positions that are selected on a rung: one or none. -/
def selectedOn (workspace : Workspace α) (index : Nat) : List Address :=
  (workspace.session.selection.filter (·.rungNumber = .ofNat index)).toList.map (·.position)

omit [Scalar α] in
theorem length_selectedOn_le (workspace : Workspace α) (index : Nat) :
    (workspace.selectedOn index).length ≤ 1 := by
  unfold selectedOn
  rw [List.length_map]
  exact Option.length_toList_le

/-- The element at a position, marked as selected. -/
def mark (position : Address) (placed : LayoutElement α) : LayoutElement α :=
  if placed.position = position then { placed with selected := true } else placed

omit [Scalar α] in
/-- Of elements of which none is marked, those at a position are marked. -/
theorem positions_of_marked {position : Address} {elements : List (LayoutElement α)}
    (plain : ∀ placed ∈ elements, placed.selected = false) :
    ((elements.map (mark position)).filter (·.selected)).map (·.position) =
      (elements.map (·.position)).filter (· == position) := by
  induction elements with
  | nil => rfl
  | cons placed rest ih =>
      obtain ⟨here, others⟩ := List.forall_mem_cons.mp plain
      by_cases same : placed.position = position
      · have marked : mark position placed = { placed with selected := true } := if_pos same
        simp only [List.map_cons, marked, List.filter_cons, if_true, same, beq_self_eq_true,
          ih others]
        exact congrArg (· :: _) same
      · have kept : mark position placed = placed := if_neg same
        simp only [List.map_cons, kept, List.filter_cons, here, beq_eq_false_iff_ne.mpr same,
          Bool.false_eq_true, if_false, ih others]

omit [Scalar α] in
theorem marked_of_plain {layout : LayoutResult α}
    (plain : ∀ placed ∈ layout.elements, placed.selected = false) : layout.marked = [] := by
  unfold LayoutResult.marked
  rw [List.filter_eq_nil_iff.mpr fun placed member => by simp [plain placed member], List.map_nil]

/-- The layout of a rung is had with just the selected position marked. -/
theorem exists_layoutAt {instructions : Category → Instruction}
    (sound : workspace.IsSound instructions) (listens : workspace.session.listening = true)
    {index : Nat} (bounded : index < workspace.drawing.routine.size) :
    ∃ layout, workspace.layoutAt (.ofNat index) = .ok layout ∧
      layout.marked = workspace.selectedOn index := by
  obtain ⟨rung, layout, draws⟩ := sound.laid.exists_draws bounded
  have plain : ∀ placed ∈ layout.elements, placed.selected = false :=
    fun placed member => draws.not_selected sound.laid member
  have cached : workspace.drawing.layoutAt (.ofNat index) = .ok layout := draws.layoutAt_eq
  unfold layoutAt selectedOn
  rw [cached, ok_bind]
  cases selected : workspace.session.selection with
  | none => exact ⟨layout, rfl, marked_of_plain plain⟩
  | some selection =>
      by_cases here : selection.rungNumber = .ofNat index
      · obtain ⟨own, place, content, names⟩ := sound.selected listens selection selected
        obtain rfl : own = index := Address.ofNat_inj.mp (names.rungNumber_eq.symm.trans here)
        obtain ⟨own, stands, drafted⟩ := Routine.exists_of_draftAt? names.stands
        obtain rfl : own = rung := Option.some.inj (stands.symm.trans draws.stands)
        have within := (List.getElem?_eq_some_iff.mp drafted).1
        rw [length_drafts] at within
        have positions := draws.map_position_eq sound.laid
        have once : (layout.elements.map (·.position)).count selection.position = 1 := by
          rw [positions, names.position_eq]
          refine List.count_eq_one_of_mem ?_ (List.mem_map_of_mem (List.mem_range.mpr within))
          exact List.nodup_range.map fun _ _ => Address.ofNat_inj.mp
        refine ⟨{ layout with elements := layout.elements.map (mark selection.position) },
          if_pos here, ?_⟩
        unfold LayoutResult.marked
        rw [positions_of_marked plain, List.filter_beq, once, Option.filter_some_pos (by simpa)]
        rfl
      · refine ⟨layout, if_neg here, ?_⟩
        rw [marked_of_plain plain, Option.filter_some_neg (by simpa)]
        rfl

/--
A session that agrees with itself and with its drawing.  The first end of a branch is kept
just while the second one is awaited, and a drag has a selection.  A selection names an
instruction of the routine as it is, and it can be copied.  Every rung can be shown, and of
its elements just the selected one is marked, if there is one on it.
-/
structure IsConsistent (workspace : Workspace α) : Prop where
  awaits : workspace.session.mode = .connectBranch ↔ workspace.session.anchor.isSome = true
  dragging : workspace.session.mode = .drag → workspace.session.selection.isSome = true
  selected : ∀ selection, workspace.session.selection = some selection →
    ∃ index place content, selection.Names workspace.drawing.routine index place content ∧
      workspace.copySelection.workspace.session.clipboard = some content
  copies : workspace.copySelection.outcome = .ok workspace.session.selection.isSome
  shows : ∀ index < workspace.drawing.routine.size, ∃ layout,
    workspace.layoutAt (.ofNat index) = .ok layout ∧ layout.marked.length ≤ 1 ∧
      layout.marked = workspace.selectedOn index

/--
Whatever is called on a session and on the editor below it, and whether the calls succeed or
fail, the session stays consistent as long as it listens.  To begin a drag cannot fail at all:
it has a truth value for an answer, and the session that it leaves is consistent once more.
-/
theorem isConsistent_of_listening [ExactScalar α] {config : LayoutConfig α}
    {instructions : Category → Instruction}
    (reachable : workspace.Reachable config instructions)
    (listens : workspace.session.listening = true) : workspace.IsConsistent := by
  have sound := reachable.isSound
  refine ⟨reachable.awaits, sound.dragging, fun selection isSelected => ?_, ?_,
    fun index bounded => ?_⟩
  · obtain ⟨index, place, content, names⟩ := sound.selected listens selection isSelected
    exact ⟨index, place, content, names, (copySelection_of_names isSelected names).2⟩
  · cases isSelected : workspace.session.selection with
    | none => exact copySelection_of_none isSelected
    | some selection =>
        obtain ⟨index, place, content, names⟩ := sound.selected listens selection isSelected
        exact (copySelection_of_names isSelected names).1
  · obtain ⟨layout, shown, marks⟩ := exists_layoutAt sound listens bounded
    exact ⟨layout, shown, marks ▸ workspace.length_selectedOn_le index, marks⟩

/--
A drag that goes on after an edit that fails and a load that fails: its selection still names
the second contact.
-/
def draggingSession : Workspace Rat :=
  sampleSession [.click 140 70, .beginDrag, .editor (.edit (.deleteElement (.ofNat 0) (.ofNat 9))),
    .editor (.load ⟨none, [⟨some "XIC(", none⟩]⟩)]

theorem isConsistent_of_dragging :
    draggingSession.session.listening = true ∧ draggingSession.session.mode = .drag ∧
      draggingSession.session.selection = some ⟨.ofNat 0, .ofNat 1⟩ ∧
      draggingSession.selectedOn 0 = [.ofNat 1] ∧ draggingSession.IsConsistent := by
  have evaluated : draggingSession.session.listening = true ∧
      draggingSession.session.mode = .drag ∧
      draggingSession.session.selection = some ⟨.ofNat 0, .ofNat 1⟩ ∧
      draggingSession.selectedOn 0 = [.ofNat 1] := by
    decide +kernel
  obtain ⟨listens, drags, selected, on⟩ := evaluated
  exact ⟨listens, drags, selected, on,
    isConsistent_of_listening (reachable_sampleSession _) listens⟩

end Workspace
end LadderDiagram
