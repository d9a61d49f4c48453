import LadderDiagram.Proofs.Routine.Renaming
import Mathlib.Data.List.InsertIdx

/-!
# Edits with other free handles

An edit looks at its rung and takes the next free handles, if it takes any.  Which handles are
free is decided by the other rungs of the routine, and it makes no difference but for the names
of the handles that are taken: the edit fails alike, or it leaves the same rung with other
names for the new handles.
-/

namespace LadderDiagram

variable {names : BranchId → BranchId}

/-! ### Names that leave a sequence as it is -/

/-- A sequence all of whose handles keep their names is renamed to itself. -/
theorem map_rename_of_fixed {source : List Draft} (pairsUp : branchesAfter? [] source = some [])
    (fixed : ∀ id ∈ openedIds source, names id = id) :
    source.map (Draft.rename names) = source := by
  have each : ∀ draft ∈ source, draft.rename names = id draft := by
    intro draft member
    cases draft with
    | instruction content => rfl
    | branchStart id =>
        exact congrArg Draft.branchStart (fixed id (mem_openedIds.mpr (Or.inl member)))
    | branchNext id =>
        exact congrArg Draft.branchNext (fixed id (mem_openedIds.mpr (Or.inr member)))
    | branchEnd id =>
        -- What is closed has been opened.
        have counted := branchesAfter?_count pairsUp id
        have ends := List.count_pos_iff.mpr member
        rw [List.count_nil] at counted
        have starts : Draft.branchStart id ∈ source := List.count_pos_iff.mp (by omega)
        exact congrArg Draft.branchEnd (fixed id (mem_openedIds.mpr (Or.inl starts)))
  exact (List.map_congr_left each).trans (List.map_id source)

theorem Rung.IsSound.rename_eq {rung : Rung} (sound : rung.IsSound)
    (injective : Function.Injective names) (fixed : ∀ id ∈ rung.handles, names id = id) :
    rung.rename names = rung := by
  have same : drafts rung.elements = (drafts rung.elements).map (Draft.rename names) :=
    (map_rename_of_fixed sound.wellNested.closes fixed).symm
  have annotates := annotate_rename injective sound.annotated
  rw [← same, sound.annotated] at annotates
  unfold Rung.rename
  rw [← Except.ok.inj annotates]

namespace Rung

open OpenRung

variable {β γ : Type}

/-! ### Edits that take no handle -/

/-- An edit to which it makes no difference which handles are free, and which takes none. -/
def LooksAtRung (edit : Action OpenRung β) : Prop :=
  ∀ (rung : Rung) (nextId other : Nat),
    edit.on ⟨rung, other⟩ =
      ((edit.on ⟨rung, nextId⟩).1, ⟨(edit.on ⟨rung, nextId⟩).2.rung, other⟩)

theorem LooksAtRung.bind {first : Action OpenRung β} {next : β → Action OpenRung γ}
    (looks : LooksAtRung first) (looksToo : ∀ answer, LooksAtRung (next answer)) :
    LooksAtRung (first >>= next) := by
  intro rung nextId other
  have keepsId := looks rung nextId nextId
  rw [Action.on_bind, Action.on_bind, looks rung nextId other]
  rcases outcome : first.on ⟨rung, nextId⟩ with ⟨error | answer, after⟩
  · rfl
  · rw [outcome] at keepsId
    have isSame : after = ⟨after.rung, nextId⟩ := congrArg Prod.snd keepsId
    dsimp only
    rw [isSame]
    exact looksToo answer after.rung nextId other

theorem LooksAtRung.map {edit : Action OpenRung β} (looks : LooksAtRung edit) (change : β → γ) :
    LooksAtRung (change <$> edit) := by
  intro rung nextId other
  rw [Action.on_map, Action.on_map, looks rung nextId other]

theorem looksAtRung_pure (answer : β) : LooksAtRung (pure answer : Action OpenRung β) :=
  fun _ _ _ => rfl

theorem looksAtRung_ask {question : OpenRung → Except LadderError β}
    (same : ∀ rung nextId other, question ⟨rung, nextId⟩ = question ⟨rung, other⟩) :
    LooksAtRung (.ask question) := by
  intro rung nextId other
  rw [Action.on_ask, Action.on_ask, same rung nextId other]

theorem looksAtRung_settled (outcome : Except LadderError β) :
    LooksAtRung (.settled outcome) :=
  looksAtRung_ask fun _ _ _ => rfl

theorem looksAtRung_get_bind {next : OpenRung → Action OpenRung β}
    (same : ∀ rung nextId other, next ⟨rung, nextId⟩ = next ⟨rung, other⟩)
    (looks : ∀ state, LooksAtRung (next state)) : LooksAtRung (get >>= next) := by
  intro rung nextId other
  rw [Action.on_bind, Action.on_bind, Action.on_get, Action.on_get]
  dsimp only
  rw [same rung other nextId]
  exact looks ⟨rung, nextId⟩ rung nextId other

theorem looksAtRung_commit (source : List Draft) : LooksAtRung (commit source) :=
  (looksAtRung_settled _).bind fun _ _ _ _ => rfl

theorem insertInstruction_looksAtRung (position : Address) (rail : Option BranchId)
    (content : Instruction) : LooksAtRung (insertInstruction position rail content) := by
  unfold insertInstruction
  refine (looksAtRung_ask fun _ _ _ => rfl).bind fun source => ?_
  refine (looksAtRung_commit source).bind fun _ => ?_
  exact (looksAtRung_ask fun _ _ _ => rfl).bind fun _ => looksAtRung_pure _

theorem replaceInstruction_looksAtRung (position : Address) (content : Instruction) :
    LooksAtRung (replaceInstruction position content) := by
  unfold replaceInstruction
  refine (looksAtRung_ask fun _ _ _ => rfl).bind fun _ => ?_
  refine looksAtRung_get_bind (fun _ _ _ => rfl) fun _ => ?_
  refine (looksAtRung_commit _).bind fun _ => ?_
  exact (looksAtRung_ask fun _ _ _ => rfl).bind fun _ => looksAtRung_pure _

theorem removeInstruction_looksAtRung (position : Address) :
    LooksAtRung (removeInstruction position) := by
  refine LooksAtRung.map ?_ Prod.fst
  unfold takeInstruction
  refine (looksAtRung_ask fun _ _ _ => rfl).bind fun _ => ?_
  refine looksAtRung_get_bind (fun _ _ _ => rfl) fun _ => ?_
  exact (looksAtRung_commit _).bind fun _ => looksAtRung_pure _

theorem moveBranch_looksAtRung (id : BranchId) (target : Address) (rail : Option BranchId) :
    LooksAtRung (moveBranch id target rail) := by
  unfold moveBranch
  refine (looksAtRung_ask fun _ _ _ => rfl).bind fun _ => ?_
  refine looksAtRung_get_bind (fun _ _ _ => rfl) fun _ => ?_
  refine (looksAtRung_settled _).bind fun _ => ?_
  refine (looksAtRung_settled _).bind fun _ => ?_
  exact (looksAtRung_commit _).bind fun _ => looksAtRung_pure _

theorem removeBranch_looksAtRung (id : BranchId) : LooksAtRung (removeBranch id) := by
  unfold removeBranch
  refine (looksAtRung_ask fun _ _ _ => rfl).bind fun _ => ?_
  refine looksAtRung_get_bind (fun _ _ _ => rfl) fun _ => ?_
  exact (looksAtRung_commit _).bind fun _ => looksAtRung_pure _

theorem deleteElement_looksAtRung (position : Address) : LooksAtRung (deleteElement position) := by
  unfold deleteElement
  refine (looksAtRung_ask fun _ _ _ => rfl).bind fun element => ?_
  cases element.draft with
  | instruction content => exact (removeInstruction_looksAtRung position).map _
  | branchStart id => exact removeBranch_looksAtRung id
  | branchNext id => exact removeBranch_looksAtRung id
  | branchEnd id => exact removeBranch_looksAtRung id

theorem setComment_looksAtRung (comment : Option String) : LooksAtRung (setComment comment) :=
  fun _ _ _ => rfl

/-! ### Edits that take handles -/

/--
Whatever handles are free, an edit of a rung fails alike, or it succeeds, takes as many of them
and leaves the same rung but for their names.
-/
def IsUniform (edit : Action OpenRung β) : Prop :=
  ∀ (rung : Rung) (nextId other : Nat), OpenRung.IsSound ⟨rung, nextId⟩ →
    OpenRung.IsSound ⟨rung, other⟩ →
    (∃ error, edit.on ⟨rung, nextId⟩ = (.error error, ⟨rung, nextId⟩) ∧
      edit.on ⟨rung, other⟩ = (.error error, ⟨rung, other⟩)) ∨
    ∃ answer answerToo changed changedToo count,
      edit.on ⟨rung, nextId⟩ = (.ok answer, ⟨changed, nextId + count⟩) ∧
      edit.on ⟨rung, other⟩ = (.ok answerToo, ⟨changedToo, other + count⟩) ∧
      ∀ names : BranchId → BranchId, Function.Injective names →
        (∀ id ∈ rung.handles, names id = id) →
        (∀ place < count, names (.ofNat (nextId + place)) = .ofNat (other + place)) →
          changedToo = changed.rename names

/-- An edit that takes no handle leaves only handles that the rung had. -/
theorem LooksAtRung.isUniform {own : Instruction → Prop} {edit : Action OpenRung β}
    (looks : LooksAtRung edit) (atomic : IsAtomic own edit) : IsUniform edit := by
  intro rung nextId other sound _
  have keepsId := looks rung nextId nextId
  have outcomeToo := looks rung nextId other
  rcases atomic _ sound with ⟨error, _, fails⟩ | ⟨answer, after, edited, succeeds⟩
  · rw [fails] at outcomeToo
    exact Or.inl ⟨error, fails, outcomeToo⟩
  rw [succeeds] at keepsId outcomeToo
  obtain ⟨changed, nextAfter⟩ := after
  obtain rfl : nextAfter = nextId := congrArg (fun result => result.2.nextId) keepsId
  refine Or.inr ⟨answer, answer, changed, changed, 0, succeeds, outcomeToo, ?_⟩
  intro names injective fixed _
  refine (edited.sound.rung.rename_eq injective fun id member => fixed id ?_).symm
  rcases edited.openedIds member with old | ⟨value, above, below, _⟩
  · exact old
  · exact absurd below (Nat.not_lt.mpr above)

/-- What is made of renamed drafts is the renamed rung. -/
theorem ofElements_eq_rename (injective : Function.Injective names) {source : List Draft}
    {elements renamed : List Element} (annotates : annotate source = .ok elements)
    (annotatesToo : annotate (source.map (Draft.rename names)) = .ok renamed)
    (comment : Option String) :
    ofElements renamed comment = (ofElements elements comment).rename names := by
  obtain rfl := Except.ok.inj (annotatesToo.symm.trans (annotate_rename injective annotates))
  exact ofElements_rename elements comment

theorem wrapped_map (source : List Draft) (start finish : Nat) (id railId : BranchId) :
    (wrapped source start finish id railId).map (Draft.rename names) =
      wrapped (source.map (Draft.rename names)) start finish (names id) (names railId) := by
  simp [wrapped, List.map_take, List.map_drop, Draft.rename]

theorem insertBranch_isUniform (first last : Address) (rail : Option BranchId) :
    IsUniform (insertBranch first last rail) := by
  intro rung nextId other sound soundToo
  rcases runBetween_cases sound.wellNested first last rail with
    ⟨error, _, fails⟩ | ⟨start, finish, ordered, _, whole, asked⟩
  · refine Or.inl ⟨error, ?_, ?_⟩
    · unfold insertBranch
      rw [Action.on_bind_ask, fails]
    · unfold insertBranch
      rw [Action.on_bind_ask]
      rw [elements_mk] at fails ⊢
      rw [fails]
  obtain ⟨elements, annotates, succeeds⟩ := on_insertBranch sound ordered whole asked
  obtain ⟨renamed, annotatesToo, succeedsToo⟩ := on_insertBranch soundToo ordered whole asked
  refine Or.inr ⟨_, _, _, _, 2, succeeds, succeedsToo, ?_⟩
  intro names injective fixed shifts
  refine ofElements_eq_rename injective annotates ?_ rung.comment
  have firstName : names (.ofNat nextId) = .ofNat other := shifts 0 (by omega)
  have secondName : names (.ofNat (nextId + 1)) = .ofNat (other + 1) := shifts 1 (by omega)
  have same : (drafts rung.elements).map (Draft.rename names) = drafts rung.elements :=
    map_rename_of_fixed sound.wellNested.closes fixed
  rw [wrapped_map, firstName, secondName, elements_mk, same]
  exact annotatesToo

theorem insertBranchLevel_isUniform (position : Address) :
    IsUniform (insertBranchLevel position) := by
  intro rung nextId other sound soundToo
  cases asked : rung.openedRailEnd position with
  | error error =>
      refine Or.inl ⟨error, ?_, ?_⟩
      · unfold insertBranchLevel
        rw [Action.on_bind_ask, asked]
      · unfold insertBranchLevel
        rw [Action.on_bind_ask, asked]
  | ok finish =>
      obtain ⟨within, elements, annotates, succeeds⟩ := on_insertBranchLevel sound asked
      obtain ⟨_, renamed, annotatesToo, succeedsToo⟩ := on_insertBranchLevel soundToo asked
      refine Or.inr ⟨_, _, _, _, 1, succeeds, succeedsToo, ?_⟩
      intro names injective fixed shifts
      refine ofElements_eq_rename injective annotates ?_ rung.comment
      have ownName : names (.ofNat nextId) = .ofNat other := shifts 0 (by omega)
      have same : (drafts rung.elements).map (Draft.rename names) = drafts rung.elements :=
        map_rename_of_fixed sound.wellNested.closes fixed
      rw [List.map_insertIdx, elements_mk, same, Draft.rename, ownName]
      exact annotatesToo

end Rung
end LadderDiagram
