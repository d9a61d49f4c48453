import LadderDiagram.Proofs.Rung.Check

/-!
# What edits do to a rung

A rung is sound when its elements and its depth are what annotation makes of its
drafts.  An edit of a sound rung either fails and leaves everything as it was, for a
reason that is never a complaint about markers, or gives a sound rung in which
every draft is one of the old ones or was brought by the edit.
-/

namespace LadderDiagram

/-- A handle among those given from one number on and before another one. -/
def Address.LiesIn (first last : Nat) (address : Address) : Prop :=
  ∃ value, first ≤ value ∧ value < last ∧ address = .ofNat value

theorem Address.LiesIn.ofNat {first last value : Nat} (above : first ≤ value)
    (below : value < last) : (Address.ofNat value).LiesIn first last :=
  ⟨value, above, below, rfl⟩

theorem Address.LiesIn.mono {first last lower upper : Nat} {address : Address}
    (inside : address.LiesIn first last) (starts : lower ≤ first) (ends : last ≤ upper) :
    address.LiesIn lower upper := by
  obtain ⟨value, above, below, rfl⟩ := inside
  exact .ofNat (Nat.le_trans starts above) (Nat.lt_of_lt_of_le below ends)

/-- A handle that was given before a number is none of those given from there on. -/
theorem Address.LiesIn.ne {first middle last : Nat} {given fresh : Address}
    (old : given.LiesIn first middle) (new : fresh.LiesIn middle last) : given ≠ fresh := by
  obtain ⟨value, _, below, rfl⟩ := old
  obtain ⟨other, above, _, rfl⟩ := new
  rw [ne_eq, Address.ofNat_inj]
  omega

/--
The drafts that an edit may bring: instructions of its own, and markers with
handles that it has taken.  An end marker closes what another one has opened.
-/
def Draft.IsBrought (own : Instruction → Prop) (first last : Nat) : Draft → Prop
  | .instruction content => own content
  | .branchStart id => id.LiesIn first last
  | .branchNext id => id.LiesIn first last
  | .branchEnd _ => True

/-- The elements and the depth of a rung are those that annotation gives its drafts. -/
structure Rung.IsSound (rung : Rung) : Prop where
  annotated : annotate (drafts rung.elements) = .ok rung.elements
  depth_eq : rung.depth = branchDepth rung.elements

theorem Rung.IsSound.wellNested {rung : Rung} (sound : rung.IsSound) :
    WellNested (drafts rung.elements) :=
  wellNested_of_annotate sound.annotated

theorem Rung.IsSound.ofElements {source : List Draft} {elements : List Element}
    (annotates : annotate source = .ok elements) (comment : Option String) :
    (Rung.ofElements elements comment).IsSound := by
  refine ⟨?_, rfl⟩
  change annotate (drafts elements) = .ok elements
  rw [drafts_of_annotate annotates]
  exact annotates

/-- The comment of a rung, if it has one, says something. -/
def Rung.IsCommented (rung : Rung) : Prop :=
  ∀ comment, rung.comment = some comment → Text.isBlankText comment = false

theorem Comment.isBlankText_of_normalize {written : Option String} {comment : String}
    (kept : normalize written = some comment) : Text.isBlankText comment = false := by
  have solid := (Option.filter_eq_some_iff.mp kept).2
  simpa using solid

/-- A sound rung is restored to what it was. -/
theorem Rung.IsSound.restored_eq {rung : Rung} (sound : rung.IsSound) : rung.restored = rung := by
  unfold Rung.restored Rung.ofElements
  rw [← sound.depth_eq]

namespace OpenRung

theorem elements_mk (rung : Rung) (nextId : Nat) :
    OpenRung.elements ⟨rung, nextId⟩ = rung.elements := rfl

/-- A sound rung all of whose handles have been given. -/
structure IsSound (state : OpenRung) : Prop where
  rung : state.rung.IsSound
  given : ∀ id ∈ openedIds (drafts state.elements), id.LiesIn 0 state.nextId

theorem IsSound.wellNested {state : OpenRung} (sound : state.IsSound) :
    WellNested (drafts state.elements) :=
  sound.rung.wellNested

/-- One state of a rung follows from another one by an edit with instructions of its own. -/
structure Edited (own : Instruction → Prop) (before after : OpenRung) : Prop where
  sound : after.IsSound
  nextId_le : before.nextId ≤ after.nextId
  brought : ∀ draft ∈ drafts after.elements,
    draft ∈ drafts before.elements ∨ draft.IsBrought own before.nextId after.nextId
  commented : before.rung.IsCommented → after.rung.IsCommented

/-- A handle of an edited rung is one of its old ones or a new one. -/
theorem Edited.openedIds {own : Instruction → Prop} {before after : OpenRung}
    (edited : Edited own before after) {id : BranchId}
    (opened : id ∈ openedIds (drafts after.elements)) :
    id ∈ LadderDiagram.openedIds (drafts before.elements) ∨
      id.LiesIn before.nextId after.nextId := by
  rw [mem_openedIds] at opened ⊢
  rcases opened with start | next
  · exact (edited.brought _ start).imp_left Or.inl
  · exact (edited.brought _ next).imp_left Or.inr

/-- An instruction of an edited rung is one of its old ones or the edit's own. -/
theorem Edited.instructions {own : Instruction → Prop} {before after : OpenRung}
    (edited : Edited own before after) {content : Instruction}
    (member : .instruction content ∈ drafts after.elements) :
    .instruction content ∈ drafts before.elements ∨ own content :=
  edited.brought _ member

/-- An edit with some instructions of its own may be seen as one that could have had more. -/
theorem Edited.mono {own wider : Instruction → Prop} {before after : OpenRung}
    (edited : Edited own before after) (widens : ∀ content, own content → wider content) :
    Edited wider before after := by
  refine ⟨edited.sound, edited.nextId_le, fun draft member => ?_, edited.commented⟩
  refine (edited.brought draft member).imp_right fun brought => ?_
  cases draft with
  | instruction content => exact widens content brought
  | branchStart id => exact brought
  | branchNext id => exact brought
  | branchEnd id => exact brought

variable {before : OpenRung} {own : Instruction → Prop}

/-- Well-nested drafts become the sequence of the rung. -/
theorem exists_commit {source : List Draft} (nested : WellNested source) (state : OpenRung) :
    ∃ elements, annotate source = .ok elements ∧
      (commit source).on state =
        (.ok (), { state with rung := .ofElements elements state.rung.comment }) := by
  obtain ⟨elements, annotates⟩ := exists_annotate_iff.mpr nested
  refine ⟨elements, annotates, ?_⟩
  unfold commit
  rw [annotates, Action.on_bind, Action.on_settled]
  rfl

/-- What is committed is an edit of the rung if its drafts are old ones or brought ones. -/
theorem IsSound.edited (sound : before.IsSound) {source : List Draft} {elements : List Element}
    (annotates : annotate source = .ok elements) {nextId : Nat} (grows : before.nextId ≤ nextId)
    (brought : ∀ draft ∈ source,
      draft ∈ drafts before.elements ∨ draft.IsBrought own before.nextId nextId) :
    Edited own before ⟨.ofElements elements before.rung.comment, nextId⟩ := by
  have source_eq : drafts elements = source := drafts_of_annotate annotates
  have given : ∀ id ∈ LadderDiagram.openedIds source, id.LiesIn 0 nextId := by
    intro id opened
    have kept : id ∈ LadderDiagram.openedIds (drafts before.elements) → id.LiesIn 0 nextId :=
      fun old => (sound.given id old).mono (Nat.le_refl _) grows
    have fresh : id.LiesIn before.nextId nextId → id.LiesIn 0 nextId :=
      fun new => new.mono (Nat.zero_le _) (Nat.le_refl _)
    rw [mem_openedIds] at opened
    rcases opened with start | next
    · exact (brought _ start).elim (fun old => kept (mem_openedIds.mpr (Or.inl old))) fresh
    · exact (brought _ next).elim (fun old => kept (mem_openedIds.mpr (Or.inr old))) fresh
  refine ⟨⟨.ofElements annotates before.rung.comment, ?_⟩, grows, ?_, id⟩
  · change ∀ id ∈ LadderDiagram.openedIds (drafts elements), id.LiesIn 0 nextId
    rw [source_eq]
    exact given
  · change ∀ draft ∈ drafts elements, _
    rw [source_eq]
    exact brought

/-- Taking a handle gives the next number, which is then no longer free. -/
theorem on_takeId (state : OpenRung) :
    takeId.on state = (.ok (.ofNat state.nextId), { state with nextId := state.nextId + 1 }) := rfl

/-- The next free handle is not one of a sound rung. -/
theorem IsSound.not_mem_openedIds (sound : before.IsSound) {value : Nat}
    (free : before.nextId ≤ value) :
    .ofNat value ∉ LadderDiagram.openedIds (drafts before.elements) := by
  intro opened
  exact (sound.given _ opened).ne (.ofNat free (Nat.lt_succ_self value)) rfl

end OpenRung

namespace Rung

open OpenRung

variable {β γ : Type} {own : Instruction → Prop}

/--
An edit that keeps sound rungs sound: it fails for an ordinary reason and leaves
everything as it was, or it succeeds and brings nothing but what is its own.
-/
def IsAtomic (own : Instruction → Prop) (edit : Action OpenRung β) : Prop :=
  ∀ before : OpenRung, before.IsSound →
    (∃ error, error.IsOrdinary ∧ edit.on before = (.error error, before)) ∨
      ∃ answer after, Edited own before after ∧ edit.on before = (.ok answer, after)

/-- What an atomic edit leaves when it succeeds is an edited rung. -/
theorem IsAtomic.edited {edit : Action OpenRung β} (atomic : IsAtomic own edit)
    {before after : OpenRung} {answer : β} (sound : before.IsSound)
    (succeeds : edit.on before = (.ok answer, after)) : Edited own before after := by
  rcases atomic before sound with ⟨error, _, fails⟩ | ⟨_, final, edited, succeedsToo⟩
  · rw [succeeds] at fails
    cases fails
  · rw [succeeds] at succeedsToo
    cases succeedsToo
    exact edited

theorem IsAtomic.map {edit : Action OpenRung β} (atomic : IsAtomic own edit) (change : β → γ) :
    IsAtomic own (change <$> edit) := by
  intro before sound
  rcases atomic before sound with ⟨error, ordinary, fails⟩ | ⟨answer, after, edited, succeeds⟩
  · refine Or.inl ⟨error, ordinary, ?_⟩
    rw [Action.on_map, fails]
    rfl
  · refine Or.inr ⟨change answer, after, edited, ?_⟩
    rw [Action.on_map, succeeds]
    rfl

/-- A sequence with an instruction at some place becomes that of the rung, and it is found there. -/
theorem exists_place {source : List Draft} (nested : WellNested source) {place : Nat}
    {content : Instruction} (placed : source[place]? = some (.instruction content))
    (state : OpenRung) :
    ∃ elements element, annotate source = .ok elements ∧ elements[place]? = some element ∧
      Action.on (do
        commit source
        let (_, element, _) ← .ask (·.rung.instructionAt (.ofNat place))
        pure element) state =
        (.ok element, ⟨.ofElements elements state.rung.comment, state.nextId⟩) := by
  obtain ⟨elements, annotates, commits⟩ := exists_commit nested state
  rw [← drafts_of_annotate annotates] at placed
  obtain ⟨element, stands, found⟩ :=
    exists_instructionAt (.ofElements elements state.rung.comment) placed
  refine ⟨elements, element, annotates, stands, ?_⟩
  rw [Action.on_bind_of_ok commits, Action.on_bind_ask, found]
  rfl

/-- Putting an instruction in takes no handle. -/
theorem insertInstruction_cases {before : OpenRung} (sound : before.IsSound) (position : Address)
    (rail : Option BranchId) (content : Instruction) :
    (∃ error, error.IsOrdinary ∧
        (insertInstruction position rail content).on before = (.error error, before)) ∨
      ∃ gap elements element, position = .ofNat gap ∧ gap ≤ (drafts before.elements).length ∧
        annotate ((drafts before.elements).insertIdx gap (.instruction content)) = .ok elements ∧
        elements[gap]? = some element ∧
        (insertInstruction position rail content).on before =
          (.ok element, ⟨.ofElements elements before.rung.comment, before.nextId⟩) := by
  unfold insertInstruction
  rcases insertedDrafts_cases before.elements position rail content with
    ⟨error, ordinary, fails⟩ | ⟨gap, rfl, within, inserts⟩
  · refine Or.inl ⟨error, ordinary, ?_⟩
    rw [Action.on_bind_ask, fails]
  have bounded : gap ≤ (drafts before.elements).length := by
    rw [length_drafts]
    exact within
  obtain ⟨elements, element, annotates, stands, places⟩ :=
    exists_place (sound.wellNested.insertInstruction bounded content)
      (List.getElem?_insertIdx_self.trans (if_pos bounded)) before
  refine Or.inr ⟨gap, elements, element, rfl, bounded, annotates, stands, ?_⟩
  rw [Action.on_bind_ask, inserts]
  exact places

theorem insertInstruction_isAtomic (position : Address) (rail : Option BranchId)
    {content : Instruction} (isOwn : own content) :
    IsAtomic own (insertInstruction position rail content) := by
  intro before sound
  rcases insertInstruction_cases sound position rail content with
    fails | ⟨gap, elements, element, _, bounded, annotates, _, succeeds⟩
  · exact Or.inl fails
  refine Or.inr ⟨element, _, ?_, succeeds⟩
  apply sound.edited annotates (Nat.le_refl _)
  intro draft member
  rcases (List.mem_insertIdx bounded).mp member with rfl | old
  · exact Or.inr isOwn
  · exact Or.inl old

theorem replaceInstruction_isAtomic (position : Address) {content : Instruction}
    (isOwn : own content) : IsAtomic own (replaceInstruction position content) := by
  intro before sound
  unfold replaceInstruction
  rcases before.rung.instructionAt_cases position with
    ⟨error, ordinary, fails⟩ | ⟨place, element, old, rfl, stands, asked⟩
  · refine Or.inl ⟨error, ordinary, ?_⟩
    rw [Action.on_bind_ask, fails]
  obtain ⟨elements, element, annotates, _, places⟩ :=
    exists_place (sound.wellNested.setInstruction stands content)
      (List.getElem?_set_self (List.getElem?_eq_some_iff.mp stands).1) before
  refine Or.inr ⟨element, ⟨.ofElements elements before.rung.comment, before.nextId⟩, ?_, ?_⟩
  · apply sound.edited annotates (Nat.le_refl _)
    intro draft member
    rcases List.mem_or_eq_of_mem_set member with kept | rfl
    · exact Or.inl kept
    · exact Or.inr isOwn
  · rw [Action.on_bind_ask, asked]
    dsimp only
    rw [Action.on_bind, Action.on_get]
    exact places

/-- Taking an instruction out needs no handle. -/
theorem takeInstruction_cases (own : Instruction → Prop) {before : OpenRung}
    (sound : before.IsSound) (position : Address) :
    (∃ error, error.IsOrdinary ∧
        (takeInstruction position).on before = (.error error, before)) ∨
      ∃ element content after, .instruction content ∈ drafts before.elements ∧
        Edited own before after ∧ after.nextId = before.nextId ∧
        (takeInstruction position).on before = (.ok (element, content), after) := by
  unfold takeInstruction
  rcases before.rung.instructionAt_cases position with
    ⟨error, ordinary, fails⟩ | ⟨place, element, content, rfl, stands, asked⟩
  · refine Or.inl ⟨error, ordinary, ?_⟩
    rw [Action.on_bind_ask, fails]
  obtain ⟨elements, annotates, commits⟩ :=
    exists_commit (sound.wellNested.eraseInstruction stands) before
  refine Or.inr ⟨element, content, ⟨.ofElements elements before.rung.comment, before.nextId⟩,
    List.mem_of_getElem? stands, ?_, rfl, ?_⟩
  · apply sound.edited annotates (Nat.le_refl _)
    exact fun draft member => Or.inl (List.mem_of_mem_eraseIdx member)
  · rw [Action.on_bind_ask, asked]
    dsimp only
    rw [Action.on_bind, Action.on_get]
    dsimp only
    rw [Action.on_bind_of_ok commits]
    rfl

theorem takeInstruction_isAtomic (position : Address) :
    IsAtomic own (takeInstruction position) := by
  intro before sound
  refine (takeInstruction_cases own sound position).imp_right ?_
  rintro ⟨element, content, after, _, edited, _, succeeds⟩
  exact ⟨_, after, edited, succeeds⟩

theorem moveInstruction_isAtomic (source target : Address) (rail : Option BranchId) :
    IsAtomic own (moveInstruction source target rail) := by
  intro before sound
  unfold moveInstruction
  rcases before.rung.instructionAt_cases source with
    ⟨error, ordinary, fails⟩ | ⟨place, element, content, rfl, stands, asked⟩
  · refine Or.inl ⟨error, ordinary, ?_⟩
    rw [Action.on_bind_ask, fails]
  obtain ⟨remaining, annotatesRemaining⟩ :=
    exists_annotate_iff.mpr (sound.wellNested.eraseInstruction stands)
  have remainingNested := sound.wellNested.eraseInstruction stands
  rw [← drafts_of_annotate annotatesRemaining] at remainingNested
  rcases insertedDrafts_cases remaining target rail content with
    ⟨error, ordinary, fails⟩ | ⟨gap, rfl, within, inserts⟩
  · refine Or.inl ⟨error, ordinary, ?_⟩
    rw [Action.on_bind_ask, asked]
    dsimp only
    rw [Action.on_bind_ask, annotatesRemaining]
    dsimp only
    rw [Action.on_bind, Action.on_settled, fails]
  have bounded : gap ≤ (drafts remaining).length := by
    rw [length_drafts]
    exact within
  obtain ⟨elements, element, annotates, _, places⟩ :=
    exists_place (remainingNested.insertInstruction bounded content)
      (List.getElem?_insertIdx_self.trans (if_pos bounded)) before
  refine Or.inr ⟨element, ⟨.ofElements elements before.rung.comment, before.nextId⟩, ?_, ?_⟩
  · apply sound.edited annotates (Nat.le_refl _)
    intro draft member
    left
    rcases (List.mem_insertIdx bounded).mp member with rfl | others
    · exact List.mem_of_getElem? stands
    · rw [drafts_of_annotate annotatesRemaining] at others
      exact List.mem_of_mem_eraseIdx others
  · rw [Action.on_bind_ask, asked]
    dsimp only
    rw [Action.on_bind_ask, annotatesRemaining]
    dsimp only
    rw [Action.on_bind, Action.on_settled, inserts]
    exact places

/-- Some drafts with a branch around those between two gaps, and a further, empty rail in it. -/
def wrapped (source : List Draft) (start finish : Nat) (id railId : BranchId) : List Draft :=
  source.take start ++ .branchStart id :: (source.take finish).drop start ++
    [.branchNext railId, .branchEnd id] ++ source.drop finish

/-- A run of whole branches that passes the checks is wrapped into a branch with new handles. -/
theorem on_insertBranch {before : OpenRung} (sound : before.IsSound) {first last : Address}
    {rail : Option BranchId} {start finish : Nat} (ordered : start ≤ finish)
    (whole : branchesAfter? [] (((drafts before.elements).take finish).drop start) = some [])
    (asked : runBetween before.elements first last rail = .ok (start, finish)) :
    ∃ elements,
      annotate (wrapped (drafts before.elements) start finish (.ofNat before.nextId)
        (.ofNat (before.nextId + 1))) = .ok elements ∧
      (insertBranch first last rail).on before = (.ok (.ofNat before.nextId),
        ⟨.ofElements elements before.rung.comment, before.nextId + 2⟩) := by
  have split : (drafts before.elements).take start ++
      ((drafts before.elements).take finish).drop start ++ (drafts before.elements).drop finish =
      drafts before.elements := by
    rw [take_append_drop_take ordered, List.take_append_drop]
  have nested := sound.wellNested
  rw [← split] at nested
  have wraps := nested.wrap whole
    (split.symm ▸ sound.not_mem_openedIds (Nat.le_refl before.nextId))
    (split.symm ▸ sound.not_mem_openedIds (Nat.le_succ before.nextId))
    (by rw [ne_eq, Address.ofNat_inj]; omega)
  rw [← List.append_assoc] at wraps
  obtain ⟨elements, annotates, commits⟩ :=
    exists_commit wraps { before with nextId := before.nextId + 2 }
  refine ⟨elements, annotates, ?_⟩
  unfold insertBranch
  rw [Action.on_bind_ask, asked]
  dsimp only
  rw [Action.on_bind_of_ok (on_takeId before), Action.on_bind_of_ok (on_takeId _),
    Action.on_bind, Action.on_get]
  exact Action.on_bind_of_ok commits _

theorem insertBranch_isAtomic (first last : Address) (rail : Option BranchId) :
    IsAtomic own (insertBranch first last rail) := by
  intro before sound
  rcases runBetween_cases sound.wellNested first last rail with
    ⟨error, ordinary, fails⟩ | ⟨start, finish, ordered, within, whole, asked⟩
  · refine Or.inl ⟨error, ordinary, ?_⟩
    unfold insertBranch
    rw [Action.on_bind_ask, fails]
  obtain ⟨elements, annotates, succeeds⟩ := on_insertBranch sound ordered whole asked
  refine Or.inr ⟨_, _, ?_, succeeds⟩
  apply sound.edited annotates (Nat.le_add_right _ _)
  intro draft member
  simp only [wrapped, List.mem_append, List.mem_cons, List.not_mem_nil, or_false] at member
  rcases member with ((old | rfl | old) | rfl | rfl) | old
  · exact Or.inl (List.mem_of_mem_take old)
  · exact Or.inr (.ofNat (Nat.le_refl _) (by omega))
  · exact Or.inl (List.mem_of_mem_take (List.mem_of_mem_drop old))
  · exact Or.inr (.ofNat (Nat.le_succ _) (by omega))
  · exact Or.inr trivial
  · exact Or.inl (List.mem_of_mem_drop old)

theorem moveBranch_isAtomic (id : BranchId) (target : Address) (rail : Option BranchId) :
    IsAtomic own (moveBranch id target rail) := by
  intro before sound
  unfold moveBranch
  rcases branchAndGap_cases sound.wellNested id target with
    ⟨error, ordinary, fails⟩ | ⟨first, block, last, gap, split, isBranch, asked⟩
  · refine Or.inl ⟨error, ordinary, ?_⟩
    rw [Action.on_bind_ask, fails]
  have nested := sound.wellNested
  rw [split] at nested
  obtain ⟨remaining, annotatesRemaining⟩ :=
    exists_annotate_iff.mpr (nested.remove fun opened _ => isBranch.neutral opened)
  have moving : ((drafts before.elements).take (first.length + block.length)).drop first.length =
      block := by
    rw [split, ← List.length_append, List.take_left, List.drop_left]
  have others : (drafts before.elements).take first.length ++
      (drafts before.elements).drop (first.length + block.length) = first ++ last := by
    rw [split, ← List.length_append, List.drop_left, List.append_assoc, List.take_left]
  rw [Action.on_bind_ask, asked]
  dsimp only
  rw [Action.on_bind, Action.on_get]
  dsimp only
  rw [others, moving, Action.on_bind, Action.on_settled, annotatesRemaining]
  dsimp only
  -- The gap is counted before the move, so behind the branch it lies by its length too far.
  generalize (if first.length + block.length ≤ gap then gap - block.length else gap) = place
  rcases checkRail_cases remaining place rail with ⟨error, ordinary, fails⟩ | onRail
  · refine Or.inl ⟨error, ordinary, ?_⟩
    rw [Action.on_bind, Action.on_settled, fails]
  obtain ⟨elements, annotates, commits⟩ := exists_commit (nested.moveBranch isBranch place) before
  refine Or.inr ⟨id, ⟨.ofElements elements before.rung.comment, before.nextId⟩, ?_, ?_⟩
  · apply sound.edited annotates (Nat.le_refl _)
    intro draft member
    left
    rw [split]
    simp only [List.mem_append] at member ⊢
    rcases member with (old | old) | old
    · have kept := List.mem_append.mp (List.mem_of_mem_take old)
      exact kept.imp_left Or.inl
    · exact Or.inl (Or.inr old)
    · have kept := List.mem_append.mp (List.mem_of_mem_drop old)
      exact kept.imp_left Or.inl
  · rw [Action.on_bind, Action.on_settled, onRail]
    dsimp only
    rw [Action.on_bind_of_ok commits]
    rfl

/-- A marker that opens a rail gets a further, empty rail below it, with a new handle. -/
theorem on_insertBranchLevel {before : OpenRung} (sound : before.IsSound) {position : Address}
    {finish : Nat} (asked : before.rung.openedRailEnd position = .ok finish) :
    finish ≤ (drafts before.elements).length ∧ ∃ elements,
      annotate ((drafts before.elements).insertIdx finish (.branchNext (.ofNat before.nextId))) =
        .ok elements ∧
      (insertBranchLevel position).on before = (.ok (.ofNat before.nextId),
        ⟨.ofElements elements before.rung.comment, before.nextId + 1⟩) := by
  rcases openedRailEnd_cases sound.wellNested position with
    ⟨error, _, fails⟩ | ⟨first, last, innermost, outer, split, within, named⟩
  · rw [asked] at fails
    cases fails
  obtain rfl : finish = first.length := Except.ok.inj (asked.symm.trans named)
  have split : drafts before.elements = first ++ last := split
  have nested := sound.wellNested
  have free := sound.not_mem_openedIds (Nat.le_refl before.nextId)
  rw [split] at nested free
  have inserted : (drafts before.elements).insertIdx first.length
      (.branchNext (.ofNat before.nextId)) =
      first ++ .branchNext (.ofNat before.nextId) :: last := by
    rw [split]
    exact insertIdx_append_length first last _
  obtain ⟨elements, annotates, commits⟩ :=
    exists_commit (nested.insertRail within free) { before with nextId := before.nextId + 1 }
  rw [← inserted] at annotates commits
  refine ⟨by rw [split, List.length_append]; exact Nat.le_add_right _ _, elements, annotates, ?_⟩
  unfold insertBranchLevel
  rw [Action.on_bind_ask, asked]
  dsimp only
  rw [Action.on_bind_of_ok (on_takeId before), Action.on_bind, Action.on_get]
  exact Action.on_bind_of_ok commits _

theorem insertBranchLevel_isAtomic (position : Address) :
    IsAtomic own (insertBranchLevel position) := by
  intro before sound
  rcases openedRailEnd_cases sound.wellNested position with
    ⟨error, ordinary, fails⟩ | ⟨first, last, innermost, outer, split, within, asked⟩
  · refine Or.inl ⟨error, ordinary, ?_⟩
    unfold insertBranchLevel
    rw [Action.on_bind_ask, fails]
  obtain ⟨bounded, elements, annotates, succeeds⟩ := on_insertBranchLevel sound asked
  refine Or.inr ⟨_, _, ?_, succeeds⟩
  apply sound.edited annotates (Nat.le_succ _)
  intro draft member
  rcases (List.mem_insertIdx bounded).mp member with rfl | old
  · exact Or.inr (.ofNat (Nat.le_refl _) (Nat.lt_succ_self _))
  · exact Or.inl old

theorem removeBranch_isAtomic (id : BranchId) : IsAtomic own (removeBranch id) := by
  intro before sound
  unfold removeBranch
  rcases openedRange_cases sound.wellNested id with
    ⟨error, ordinary, fails⟩ | ⟨first, block, last, split, neutral, asked⟩
  · refine Or.inl ⟨error, ordinary, ?_⟩
    rw [Action.on_bind_ask, fails]
  have nested := sound.wellNested
  rw [split] at nested
  have removed : (drafts before.elements).take first.length ++
      (drafts before.elements).drop (first.length + block.length) = first ++ last := by
    rw [split, ← List.length_append, List.drop_left, List.append_assoc, List.take_left]
  obtain ⟨elements, annotates, commits⟩ := exists_commit (nested.remove neutral) before
  refine Or.inr ⟨(before.elements.take (first.length + block.length)).drop first.length,
    ⟨.ofElements elements before.rung.comment, before.nextId⟩, ?_, ?_⟩
  · apply sound.edited annotates (Nat.le_refl _)
    intro draft member
    left
    rw [split]
    simp only [List.mem_append] at member ⊢
    exact member.imp_left Or.inl
  · rw [Action.on_bind_ask, asked]
    dsimp only
    rw [Action.on_bind, Action.on_get]
    dsimp only
    rw [removed, Action.on_bind_of_ok commits]
    rfl

theorem setComment_isAtomic (comment : Option String) : IsAtomic own (setComment comment) := by
  intro before sound
  refine Or.inr ⟨(), _, ⟨⟨⟨?_, ?_⟩, ?_⟩, ?_, ?_, ?_⟩, Action.on_modify _ before⟩
  · exact sound.rung.annotated
  · exact sound.rung.depth_eq
  · exact sound.given
  · exact Nat.le_refl before.nextId
  · exact fun draft member => Or.inl member
  · exact fun _ _ kept => Comment.isBlankText_of_normalize kept

theorem deleteElement_isAtomic (position : Address) : IsAtomic own (deleteElement position) := by
  intro before sound
  unfold deleteElement
  rcases before.rung.entryAt_cases position with
    ⟨error, ordinary, fails⟩ | ⟨place, element, _, found, entry⟩
  · refine Or.inl ⟨error, ordinary, ?_⟩
    rw [Action.on_bind_ask, elementAt, fails]
    rfl
  have asked : before.rung.elementAt position = .ok element := by
    rw [elementAt, entry]
    rfl
  rw [Action.on_bind_ask, asked]
  dsimp only
  cases element.draft with
  | instruction content =>
      exact ((takeInstruction_isAtomic position).map Prod.fst).map _ before sound
  | branchStart id => exact removeBranch_isAtomic id before sound
  | branchNext id => exact removeBranch_isAtomic id before sound
  | branchEnd id => exact removeBranch_isAtomic id before sound

end Rung
end LadderDiagram
