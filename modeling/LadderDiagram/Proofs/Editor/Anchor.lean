import LadderDiagram.Proofs.Editor.Preview

/-!
# Pending anchors

The first end of a branch is kept as an address until the second one is set.  The address
stays that of a gap on its rail as long as the sequence of its rung stays what it was, and
then the second end connects the two gaps or the action is ignored.  Nothing drops the
address when that sequence changes: a session that has set the first end can come to a rung
which has no such gap any more.
-/

namespace LadderDiagram

theorem Address.earlier_ofNat (first second : Nat) :
    (ofNat first).earlier (.ofNat second) = .ofNat (min first second) := by
  unfold earlier
  rw [isAfter_ofNat]
  by_cases behind : second < first
  · rw [if_pos (decide_eq_true behind), Nat.min_eq_right (Nat.le_of_lt behind)]
  · rw [if_neg (by simp [behind]), Nat.min_eq_left (Nat.le_of_not_lt behind)]

/-- A target keeps its meaning as long as its rung keeps its sequence. -/
theorem InsertionTarget.Names.of_sources {target : InsertionTarget} {before after : Routine}
    {index gap : Nat} {rung : Rung} (names : target.Names before index rung gap)
    (sound : before.IsSound) (soundAfter : after.IsSound)
    (same : after.sources[index]? = before.sources[index]?) :
    ∃ other, target.Names after index other gap := by
  rw [Routine.sources_getElem? names.stands, Routine.sources, List.getElem?_map] at same
  obtain ⟨other, stands, sameDrafts⟩ := Option.map_eq_some_iff.mp same
  have sameElements : other.elements = rung.elements := by
    have annotated := (soundAfter.rungAt stands).annotated
    rw [sameDrafts, (sound.rungAt names.stands).annotated] at annotated
    exact (Except.ok.inj annotated).symm
  exact ⟨other, stands, sameElements ▸ names.within, names.rungNumber_eq, names.position_eq,
    sameElements ▸ names.branchId_eq⟩

namespace Workspace

variable {α : Type} [Scalar α] {workspace : Workspace α}

/-! ### Where an anchor comes from -/

omit [Scalar α] in
theorem anchor_afterEdit {β : Type} (session : Session) (outcome : Except LadderError β) :
    (session.afterEdit outcome).anchor = session.anchor := by
  unfold Session.afterEdit Session.afterLayout
  cases outcome with
  | error error => rfl
  | ok answer =>
      dsimp only
      split
      next => rfl
      next => rfl

theorem anchor_called (call : Editor.Call α) :
    (workspace.called call).session.anchor = workspace.session.anchor := by
  rw [called_eq]
  exact anchor_afterEdit _ _

theorem anchor_release (x y : α) :
    (workspace.release x y).workspace.session.anchor = workspace.session.anchor := by
  rcases release_workspace workspace x y with same | same | ⟨change, same⟩
  · rw [same]
  · rw [same]
    rfl
  · rw [same, anchor_called]
    rfl

theorem anchor_connect (x y : α) :
    (workspace.connect x y).workspace.session.anchor = none := by
  rcases connect_workspace workspace x y with same | ⟨change, same⟩
  · rw [same]
    rfl
  · rw [same, anchor_called]
    rfl

/-- An anchor has just been found on the drawing as it is. -/
def Captures (workspace after : Workspace α) : Prop :=
  ∃ x y anchor, workspace.drawing.resolveInsertion x y = .ok anchor ∧
    after.session.anchor = some anchor ∧ after.drawing = workspace.drawing

theorem anchor_click (workspace : Workspace α) (x y : α) :
    (workspace.click x y).workspace.session.anchor = none ∨
      (workspace.click x y).workspace.session.anchor = workspace.session.anchor ∨
      workspace.Captures (workspace.click x y).workspace := by
  rcases workspace.click_cases x y with
    ⟨same, _⟩ | ⟨same, _⟩ | ⟨same, _⟩ | ⟨_, _, _, _, same⟩ | ⟨same, _⟩
  · rw [same]
    exact Or.inl (anchor_connect x y)
  · rw [same]
    exact Or.inr (Or.inl (anchor_release x y))
  · rw [same]
    rcases captureAnchor_workspace workspace x y with
      ⟨_, _, unchanged⟩ | ⟨anchor, resolves, captured⟩
    · rw [unchanged]
      exact Or.inr (Or.inl rfl)
    · rw [captured]
      exact Or.inr (Or.inr ⟨x, y, anchor, resolves, rfl, rfl⟩)
  · rw [same, insertHere_workspace, anchor_called]
    exact Or.inr (Or.inl rfl)
  · rw [same]
    exact Or.inr (Or.inl rfl)

/-- A call drops the anchor, keeps it, or captures a new one. -/
theorem anchor_after (workspace : Workspace α) (call : SessionCall α) :
    (workspace.after call).session.anchor = none ∨
      (workspace.after call).session.anchor = workspace.session.anchor ∨
      workspace.Captures (workspace.after call) := by
  cases call with
  | editor call => exact Or.inr (Or.inl (anchor_called call))
  | setMode mode => exact Or.inl rfl
  | cancel => exact Or.inl rfl
  | click x y => exact workspace.anchor_click x y
  | beginDrag =>
      right
      left
      change workspace.session.beginDrag.2.anchor = _
      unfold Session.beginDrag
      split
      next => rfl
      next => rfl
  | release x y => exact Or.inr (Or.inl (anchor_release x y))
  | copySelection =>
      right
      left
      change workspace.copySelection.workspace.session.anchor = _
      unfold copySelection
      split
      next => rfl
      next =>
        dsimp only
        split
        next => rfl
        next =>
          split
          next => rfl
          next => rfl
  | paste x y =>
      right
      left
      change (workspace.paste x y).workspace.session.anchor = _
      unfold paste
      split
      next => rfl
      next => rw [insertHere_workspace, anchor_called]
  | dispose => exact Or.inr (Or.inl rfl)

/-! ### What an anchor names -/

/-- A call leaves the sequence of the anchored rung as it is, unless it ends the waiting. -/
def KeepsAnchor (workspace : Workspace α) (call : SessionCall α) : Prop :=
  ∀ anchor index, workspace.session.anchor = some anchor →
    (workspace.after call).session.anchor = some anchor → anchor.rungNumber = .ofNat index →
      (workspace.after call).drawing.routine.sources[index]? =
        workspace.drawing.routine.sources[index]?

/-- The pending anchor, if there is one, is a gap of a rung on its rail. -/
def AnchorNames (workspace : Workspace α) : Prop :=
  ∀ anchor, workspace.session.anchor = some anchor →
    ∃ index rung gap, anchor.Names workspace.drawing.routine index rung gap

variable [ExactScalar α] {instructions : Category → Instruction}

theorem AnchorNames.after (names : workspace.AnchorNames) (sound : workspace.IsSound instructions)
    {call : SessionCall α} (keeps : workspace.KeepsAnchor call) :
    (workspace.after call).AnchorNames := by
  intro anchor pending
  rcases workspace.anchor_after call with none | kept | ⟨x, y, captured, resolves, own, drawn⟩
  · rw [none] at pending
    cases pending
  · have before : workspace.session.anchor = some anchor := kept.symm.trans pending
    obtain ⟨index, rung, gap, named⟩ := names anchor before
    obtain ⟨other, namedToo⟩ := named.of_sources sound.laid.sound (sound.after call).laid.sound
      (keeps anchor index before pending named.rungNumber_eq)
    exact ⟨index, other, gap, namedToo⟩
  · obtain rfl : captured = anchor := Option.some.inj (own.symm.trans pending)
    rw [drawn]
    rcases sound.laid.resolveInsertion_cases x y with
      ⟨error, fails, _⟩ | ⟨target, index, rung, gap, found, named⟩
    · rw [resolves] at fails
      cases fails
    · obtain rfl : captured = target := Except.ok.inj (resolves.symm.trans found)
      exact ⟨index, rung, gap, named⟩

theorem ReachableBy.anchorNames {config : LayoutConfig α}
    (reachable : workspace.ReachableBy KeepsAnchor config instructions) :
    workspace.AnchorNames := by
  induction reachable with
  | new => exact nofun
  | called call before keeps names => exact names.after before.isSound keeps

/-! ### The second end of a branch -/

/-- A target is a gap of the rung of an anchor, and on its rail. -/
def OnRailOf (target anchor : InsertionTarget) : Prop :=
  target.rungNumber = anchor.rungNumber ∧ target.branchId = anchor.branchId

/-- A turn puts a branch between the gaps of an anchor and a target, on the anchored rail. -/
def Connects (workspace : Workspace α) (anchor target : InsertionTarget)
    (turn : Turn α SessionOutcome) : Prop :=
  ∃ index gap other id, anchor.rungNumber = .ofNat index ∧ anchor.position = .ofNat gap ∧
    target.position = .ofNat other ∧ turn.outcome = .ok (.connected anchor.rungNumber id) ∧
    workspace.drawing.routine.Wraps index (min gap other) (max gap other) anchor.branchId id
      turn.workspace.drawing.routine

omit [ExactScalar α] in
theorem connect_of_none (none : workspace.session.anchor = none) (x y : α) :
    workspace.connect x y =
      (workspace.withSession workspace.session.cancel).quiet
        (.ok (.ignored "No branch anchor.")) := by
  unfold connect
  rw [none]

omit [ExactScalar α] in
theorem connect_eq {anchor : InsertionTarget} (pending : workspace.session.anchor = some anchor)
    (x y : α) :
    workspace.connect x y =
      ignoring (match workspace.drawing.resolveInsertion x y with
        | .error error => (workspace.withSession workspace.session.cancel).quiet (.error error)
        | .ok target =>
            if target.rungNumber ≠ anchor.rungNumber || target.branchId ≠ anchor.branchId then
              (workspace.withSession workspace.session.cancel).quiet
                (.ok (.ignored "Branch ends must sit on the same rail of the same rung."))
            else
              (workspace.withSession workspace.session.cancel).takeAs
                (Editor.perform workspace.drawing (.insertBranch anchor.rungNumber
                  (anchor.position.earlier target.position)
                  (anchor.position.later target.position) anchor.branchId))
                fun id => .connected anchor.rungNumber id) := by
  unfold connect
  rw [pending]
  rfl

omit [ExactScalar α] in
theorem insertBranch_of_ok {drawing final : Drawing α} {rung first last : Address}
    {rail : Option BranchId} {id : BranchId}
    (inserts : drawing.apply (.insertBranch rung first last rail) = (.ok id, final)) :
    (Editor.perform drawing (.insertBranch rung first last rail)).outcome = .ok id ∧
      (Editor.perform drawing (.insertBranch rung first last rail)).drawing = final := by
  unfold Editor.perform Editor.performAs
  rw [Editor.report_outcome, Editor.report_drawing, inserts]
  exact ⟨rfl, rfl⟩

/-- Two gaps of one rail of a drawing are connected, whichever of them comes first. -/
theorem exists_insertBranch_between {drawing : Drawing α} (laid : drawing.LaidOut)
    {anchor target : InsertionTarget} {index gap other : Nat} {rung : Rung}
    (names : anchor.Names drawing.routine index rung gap)
    (found : target.Names drawing.routine index rung other)
    (sameRail : target.branchId = anchor.branchId) :
    ∃ id final,
      drawing.apply (.insertBranch anchor.rungNumber (anchor.position.earlier target.position)
        (anchor.position.later target.position) anchor.branchId) = (.ok id, final) ∧
      drawing.routine.Wraps index (min gap other) (max gap other) anchor.branchId id
        final.routine := by
  rw [found.branchId_eq, names.branchId_eq] at sameRail
  have startRail : railAtGap rung.elements (min gap other) = anchor.branchId := by
    rw [names.branchId_eq]
    rcases Nat.le_total gap other with before | behind
    · rw [Nat.min_eq_left before]
    · rw [Nat.min_eq_right behind, sameRail]
  have finishRail : railAtGap rung.elements (max gap other) = anchor.branchId := by
    rw [names.branchId_eq]
    rcases Nat.le_total gap other with before | behind
    · rw [Nat.max_eq_right before, sameRail]
    · rw [Nat.max_eq_left behind]
  obtain ⟨id, final, inserts, _, wraps⟩ := laid.exists_insertBranch names.stands
    (Nat.le_trans (Nat.min_le_left gap other) (Nat.le_max_left gap other))
    (Nat.max_le.mpr ⟨names.within, found.within⟩) (startRail.trans finishRail.symm)
  rw [startRail] at inserts wraps
  refine ⟨id, final, ?_, wraps⟩
  rw [names.rungNumber_eq, names.position_eq, found.position_eq, Address.earlier_ofNat,
    Address.later_ofNat]
  exact inserts

/-- Between two gaps of the anchored rail a branch is put, and anything else is ignored. -/
theorem connect_cases (laid : workspace.drawing.LaidOut) {anchor : InsertionTarget}
    (pending : workspace.session.anchor = some anchor) {index gap : Nat} {rung : Rung}
    (names : anchor.Names workspace.drawing.routine index rung gap) (x y : α) :
    (∃ target, workspace.drawing.resolveInsertion x y = .ok target ∧ OnRailOf target anchor ∧
        workspace.Connects anchor target (workspace.connect x y)) ∨
      workspace.Ignores (workspace.connect x y) ∧
        ∀ target, workspace.drawing.resolveInsertion x y = .ok target →
          ¬ OnRailOf target anchor := by
  rw [connect_eq pending]
  rcases laid.resolveInsertion_cases x y with
    ⟨error, fails, recoverable⟩ | ⟨target, goal, other, place, resolves, found⟩
  · rw [fails]
    refine Or.inr ⟨⟨⟨error.message, ignoring_of_error rfl recoverable⟩, ?_⟩, nofun⟩
    rw [ignoring_workspace]
    rfl
  rw [resolves]
  dsimp only
  by_cases onRail : OnRailOf target anchor
  · left
    obtain ⟨sameRung, sameRail⟩ := onRail
    have sameIndex : goal = index := by
      rw [found.rungNumber_eq, names.rungNumber_eq] at sameRung
      exact Address.ofNat_inj.mp sameRung
    subst sameIndex
    obtain rfl : other = rung := Option.some.inj (found.stands.symm.trans names.stands)
    obtain ⟨id, final, inserts, wraps⟩ := exists_insertBranch_between laid names found sameRail
    obtain ⟨succeeded, drawn⟩ := insertBranch_of_ok inserts
    obtain ⟨outcome, drawing⟩ := ignoring_takeAs_of_ok
      (workspace.withSession workspace.session.cancel)
      (fun id => .connected anchor.rungNumber id) succeeded
    rw [if_neg (by simp [sameRung, sameRail])]
    refine ⟨target, rfl, ⟨sameRung, sameRail⟩, goal, gap, place, id, names.rungNumber_eq,
      names.position_eq, found.position_eq, outcome, ?_⟩
    rw [drawing, drawn]
    exact wraps
  · right
    rw [if_pos (by simpa [OnRailOf, imp_iff_not_or] using onRail)]
    refine ⟨⟨⟨_, rfl⟩, rfl⟩, fun own isOwn => ?_⟩
    obtain rfl := Except.ok.inj isOwn
    exact onRail

/--
As long as no call changes the sequence of the anchored rung while the anchor is pending, the
anchor is a gap of that rung on the rail that it names.  So the click that follows fails
nowhere: it puts a branch between the two gaps if the point under it leads to the anchored
rail, and it is ignored otherwise.  The session is viewing after it, with no anchor.
-/
theorem anchor_connects {config : LayoutConfig α}
    (reachable : workspace.ReachableBy KeepsAnchor config instructions) :
    workspace.AnchorNames ∧
    (workspace.session.mode = .connectBranch → ∀ x y,
      (workspace.click x y).workspace.session.mode = .tool .view ∧
      (workspace.click x y).workspace.session.anchor = none ∧
      ((∃ anchor target, workspace.session.anchor = some anchor ∧
          workspace.drawing.resolveInsertion x y = .ok target ∧ OnRailOf target anchor ∧
          workspace.Connects anchor target (workspace.click x y)) ∨
        workspace.Ignores (workspace.click x y) ∧
          ∀ anchor target, workspace.session.anchor = some anchor →
            workspace.drawing.resolveInsertion x y = .ok target → ¬ OnRailOf target anchor)) := by
  have names := reachable.anchorNames
  refine ⟨names, fun connecting x y => ?_⟩
  have clicks : workspace.click x y = workspace.connect x y := by
    unfold click
    rw [connecting]
  rw [clicks]
  refine ⟨?_, anchor_connect x y, ?_⟩
  · rcases connect_workspace workspace x y with same | ⟨change, same⟩
    · rw [same]
      rfl
    · rw [same, called_eq]
      exact mode_afterEdit rfl _
  · cases pending : workspace.session.anchor with
    | none =>
        rw [connect_of_none pending]
        exact Or.inr ⟨⟨⟨_, rfl⟩, rfl⟩, fun _ _ isPending => nomatch isPending⟩
    | some anchor =>
        obtain ⟨index, rung, gap, named⟩ := names anchor pending
        rcases connect_cases reachable.isSound.laid pending named x y with
          ⟨target, resolves, onRail, connects⟩ | ⟨ignores, elsewhere⟩
        · exact Or.inl ⟨anchor, target, rfl, resolves, onRail, connects⟩
        · refine Or.inr ⟨ignores, fun own target isOwn resolves => ?_⟩
          obtain rfl := Option.some.inj isOwn
          exact elsewhere target resolves

omit [ExactScalar α] in
theorem keepsAnchor_of_none (none : workspace.session.anchor = none) (call : SessionCall α) :
    workspace.KeepsAnchor call := by
  intro anchor index pending
  rw [none] at pending
  cases pending

/-- A session on two rungs. -/
def twoRungSession : Workspace Rat :=
  (Workspace.empty .standard Instruction.placeholder).after
    (.editor (.load ⟨none, [⟨some "XIC(A)OTE(B);", none⟩, ⟨some "OTE(C);", none⟩]⟩))

/-- The session awaits the second end of a branch on the first rung. -/
def anchoredSession : Workspace Rat :=
  (twoRungSession.after (.setMode .insertBranch)).after (.click 70 70)

theorem reachable_anchoredSession :
    anchoredSession.ReachableBy KeepsAnchor .standard Instruction.placeholder := by
  have loaded : twoRungSession.ReachableBy KeepsAnchor .standard Instruction.placeholder :=
    .called _ .new (keepsAnchor_of_none rfl _)
  refine .called _ (.called _ loaded (keepsAnchor_of_none ?_ _)) (keepsAnchor_of_none ?_ _)
  · decide +kernel
  · decide +kernel

/-- The other rung is edited, and the branch is still connected. -/
theorem anchor_connects_of_sample :
    ∃ between : Workspace Rat,
      between = anchoredSession.after (.editor (.edit (.deleteElement (.ofNat 1) (.ofNat 0)))) ∧
      between.ReachableBy KeepsAnchor .standard Instruction.placeholder ∧
      between.session.mode = .connectBranch ∧ between.AnchorNames ∧
      ∃ anchor target, between.session.anchor = some anchor ∧
        between.Connects anchor target (between.click 160 70) := by
  have keeps : anchoredSession.KeepsAnchor
      (.editor (.edit (.deleteElement (.ofNat 1) (.ofNat 0)))) := by
    intro anchor index pending _ isIndex
    have onFirst : anchoredSession.session.anchor.map (·.rungNumber) = some (.ofNat 0) := by
      decide +kernel
    rw [pending, Option.map_some, isIndex, Option.some.injEq, Address.ofNat_inj] at onFirst
    subst onFirst
    decide +kernel
  have reachable := ReachableBy.called _ reachable_anchoredSession keeps
  obtain ⟨names, connects⟩ := anchor_connects reachable
  have connecting : (anchoredSession.after (.editor (.edit (.deleteElement (.ofNat 1)
      (.ofNat 0))))).session.mode = .connectBranch := by
    decide +kernel
  refine ⟨_, rfl, reachable, connecting, names, ?_⟩
  obtain ⟨_, _, ⟨anchor, target, pending, _, _, done⟩ | ⟨⟨⟨reason, ignored⟩, _⟩, _⟩⟩ :=
    connects connecting 160 70
  · exact ⟨anchor, target, pending, done⟩
  · have answered : ((anchoredSession.after (.editor (.edit (.deleteElement (.ofNat 1)
        (.ofNat 0))))).click 160 70).outcome.toOption.any
          (fun | .connected _ _ => true | _ => false) = true := by
      decide +kernel
    rw [ignored] at answered
    cases answered

/-- A session that awaits the second end of a branch on a rung that has been emptied since. -/
def emptiedSession : Workspace Rat :=
  sampleSession ([.setMode .insertBranch, .click 160 70] ++
    List.replicate 3 (.editor (.edit (.deleteElement (.ofNat 0) (.ofNat 0)))))

/--
Once the instructions of the anchored rung are deleted, the anchor names a gap that is not
there, and the click that sets the second end fails.
-/
theorem not_anchorNames :
    ∃ workspace : Workspace Rat, workspace.Reachable .standard Instruction.placeholder ∧
      workspace.session.listening = true ∧ workspace.session.mode = .connectBranch ∧
      (∃ anchor, workspace.session.anchor = some anchor) ∧ ¬ workspace.AnchorNames ∧
      ∃ error, (workspace.click 70 70).outcome = .error error := by
  have evaluated : let workspace := emptiedSession
      workspace.session.listening = true ∧ workspace.session.mode = .connectBranch ∧
        workspace.session.anchor.map (·.position) = some (.ofNat 2) ∧
        workspace.drawing.routine.rungs.map (·.elements.length) = [0] ∧
        (workspace.click 70 70).outcome.toOption.isNone = true := by
    decide +kernel
  obtain ⟨listens, connecting, position, lengths, failed⟩ := evaluated
  obtain ⟨anchor, pending, isSecond⟩ := Option.map_eq_some_iff.mp position
  refine ⟨emptiedSession, reachable_sampleSession _, listens, connecting, ⟨anchor, pending⟩,
    fun names => ?_, exists_error_of_isNone failed⟩
  obtain ⟨index, rung, gap, named⟩ := names anchor pending
  have isEmpty : rung.elements.length ∈ emptiedSession.drawing.routine.rungs.map
      (·.elements.length) := List.mem_map_of_mem (List.mem_of_getElem? named.stands)
  rw [lengths, List.mem_singleton] at isEmpty
  have atSecond := named.position_eq
  rw [isSecond, Address.ofNat_inj] at atSecond
  have within := named.within
  omega

end Workspace
end LadderDiagram
