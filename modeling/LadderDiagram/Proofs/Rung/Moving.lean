import LadderDiagram.Proofs.Routine.Run
import LadderDiagram.Proofs.Rung.Undoing
import LadderDiagram.Proofs.Sequence.Surroundings

/-!
# Moving instructions and branches

A placement that succeeds has named a gap and the rail on which it lies, and an instruction
that is taken from a place has stood there.  The gap of a move within a rung is counted
without the instruction, and its rail is that of the gap before the move.

A branch is moved by its handle to any gap that is not inside it and is named with its rail.
The checks are made on what is left when the branch has been taken out; as a branch leaves
the rails behind it as they are, they ask for no more than what can be said of the sequence
before the move.  The branch comes to stand in the gap as it was, but for the branches around
it, and the others do not change.  So the same move the other way is never turned away, and
it gives back the sequence that there was.
-/

namespace LadderDiagram
namespace Rung

open OpenRung

/-! ### What a placement asks for -/

section Placements

variable {rung : Rung} {nextId : Nat} {source target : Address} {rail : Option BranchId}
  {content : Instruction} {answer : Element} {after : OpenRung}

theorem exists_of_insertedDrafts {elements : List Element}
    (annotates : annotate (drafts elements) = .ok elements) {made : List Draft}
    (inserts : insertedDrafts elements target rail content = .ok made) :
    ∃ gap, target = .ofNat gap ∧ gap ≤ elements.length ∧ railAtGap elements gap = rail := by
  unfold insertedDrafts at inserts
  obtain ⟨gap, named, checks⟩ := exists_of_bind inserts
  obtain ⟨rfl, within⟩ := gapAt_eq_ok_iff.mp named
  obtain ⟨_, passes, _⟩ := exists_of_bind checks
  exact ⟨gap, rfl, within, (checkRail_eq_ok_iff annotates within).mp passes⟩

theorem exists_of_on_insertInstruction (sound : OpenRung.IsSound ⟨rung, nextId⟩)
    (succeeds : (insertInstruction target rail content).on ⟨rung, nextId⟩ =
      (.ok answer, after)) :
    ∃ gap, target = .ofNat gap ∧ gap ≤ rung.elements.length ∧
      railAtGap rung.elements gap = rail := by
  unfold insertInstruction at succeeds
  obtain ⟨made, inserts, _⟩ := Action.exists_of_on_bind_ask succeeds
  exact exists_of_insertedDrafts sound.rung.annotated inserts

theorem exists_of_instructionAt {found : Nat × Element × Instruction}
    (asked : rung.instructionAt source = .ok found) :
    source = .ofNat found.1 ∧ (drafts rung.elements)[found.1]? = some (.instruction found.2.2) := by
  rcases rung.instructionAt_cases source with
    ⟨error, _, fails⟩ | ⟨place, element, content, rfl, stands, succeeds⟩
  · rw [asked] at fails
    cases fails
  · rw [asked] at succeeds
    cases succeeds
    exact ⟨rfl, stands⟩

theorem exists_of_on_takeInstruction {answer : Element × Instruction}
    (succeeds : (takeInstruction source).on ⟨rung, nextId⟩ = (.ok answer, after)) :
    ∃ place content, source = .ofNat place ∧
      (drafts rung.elements)[place]? = some (.instruction content) := by
  unfold takeInstruction at succeeds
  obtain ⟨found, asked, _⟩ := Action.exists_of_on_bind_ask succeeds
  exact ⟨_, _, exists_of_instructionAt asked⟩

/-- The gap of a move within a rung is one that lies on the rail before the move. -/
theorem exists_of_on_moveInstruction (sound : OpenRung.IsSound ⟨rung, nextId⟩)
    (succeeds : (moveInstruction source target rail).on ⟨rung, nextId⟩ = (.ok answer, after)) :
    ∃ place content goal, source = .ofNat place ∧
      (drafts rung.elements)[place]? = some (.instruction content) ∧ target = .ofNat goal ∧
      goal < rung.elements.length ∧
      ∀ gap ≤ rung.elements.length, gapWithout place gap = goal →
        railAtGap rung.elements gap = rail := by
  unfold moveInstruction at succeeds
  obtain ⟨found, asked, goesOn⟩ := Action.exists_of_on_bind_ask succeeds
  obtain ⟨rfl, stands⟩ := exists_of_instructionAt asked
  obtain ⟨remaining, annotates, goesOn⟩ := Action.exists_of_on_bind_ask goesOn
  obtain ⟨made, _, inserts, _⟩ := Action.exists_of_on_bind goesOn
  rw [Action.on_settled, Prod.mk.injEq] at inserts
  have rest := drafts_of_annotate annotates
  obtain ⟨goal, rfl, within, onRail⟩ :=
    exists_of_insertedDrafts (rest.symm ▸ annotates) inserts.1
  have bounded : found.1 < (drafts rung.elements).length := (List.getElem?_eq_some_iff.mp stands).1
  rw [← length_drafts, rest, elements_mk, List.length_eraseIdx_of_lt bounded] at within
  refine ⟨found.1, found.2.2, goal, rfl, stands, rfl, ?_, fun gap inRung same => ?_⟩
  · rw [← length_drafts]
    omega
  · rw [← onRail, ← same]
    exact (railAtGap_eraseIdx sound.rung.annotated stands annotates
      (by rwa [length_drafts])).symm

end Placements

/-! ### The gaps of a move -/

/-- A gap of a sequence lies on a rail, and not between the two markers of a branch. -/
structure LiesOutside (elements : List Element) (start finish gap : Nat)
    (rail : Option BranchId) : Prop where
  within : gap ≤ elements.length
  outside : gap ≤ start ∨ finish < gap
  onRail : railAtGap elements gap = rail

/-- The elements from one place to another one, both included. -/
def elementsFrom (elements : List Element) (start finish : Nat) : List Element :=
  (elements.take (finish + 1)).drop start

/-- The elements before one place and behind another one. -/
def elementsAround (elements : List Element) (start finish : Nat) : List Element :=
  elements.take start ++ elements.drop (finish + 1)

/-- Where a branch begins once it has been moved to a gap that is counted with it. -/
def movedStart (start finish gap : Nat) : Nat := gapWithoutBranch start (finish + 1 - start) gap

/-- Where a branch ends then. -/
def movedFinish (start finish gap : Nat) : Nat := movedStart start finish gap + (finish - start)

/--
The gap from which a branch has come, counted with the branch where it stands now: its old
start, and by its length more if it has gone to an earlier place.
-/
def gapBack (start finish gap : Nat) : Nat :=
  if gap < start then start + (finish + 1 - start) else start

/--
A sequence has come to have a branch in another gap.  The others have changed nothing but
their positions, and the branch stands on the rail of the gap as it did on its old one.
-/
structure HasMoved (before after : List Element) (start finish gap : Nat) : Prop where
  others : (elementsAround after (movedStart start finish gap)
      (movedFinish start finish gap)).map Element.unplaced =
    (elementsAround before start finish).map Element.unplaced
  branch : ∃ outer other, levelAtGap before start = .ofNat outer ∧
    levelAtGap before gap = .ofNat other ∧
    List.Forall₂ (Element.Shifts outer other (railAtGap before start) (railAtGap before gap))
      (elementsFrom before start finish)
      (elementsFrom after (movedStart start finish gap) (movedFinish start finish gap))

section Gaps

variable {start length finish : Nat} (gap : Nat) (ends : start + length = finish + 1)

include ends

/-- The gap from which a branch has come is not inside it where it stands now. -/
theorem gapBack_outside :
    gapBack start finish gap ≤ gapWithoutBranch start length gap ∨
      gapWithoutBranch start length gap + length ≤ gapBack start finish gap := by
  unfold gapBack gapWithoutBranch
  split <;> split <;> omega

/-- Without the branch the gap from which it has come is its old start. -/
theorem gapWithoutBranch_gapBack :
    gapWithoutBranch (gapWithoutBranch start length gap) length (gapBack start finish gap) =
      start := by
  unfold gapBack gapWithoutBranch
  split <;> split <;> split <;> omega

end Gaps

section Handles

variable {elements : List Element} {id : BranchId} {start finish : Nat}

theorem markerOf?_of_hasBranch (nested : WellNested (drafts elements))
    (has : HasBranch elements id start finish) :
    markerOf? elements startId? id = some start := by
  cases marks : markerOf? elements startId? id with
  | none =>
      have stands := has.begins
      rw [drafts_getElem?] at stands
      obtain ⟨element, found, isStart⟩ := Option.map_eq_some_iff.mp stands
      have other := List.findIdx?_eq_none_iff.mp marks element (List.mem_of_getElem? found)
      rw [isStart] at other
      exact absurd rfl (beq_eq_false_iff_ne.mp other)
  | some place =>
      obtain ⟨marker, stands, isStart⟩ := markerOf?_eq_some marks
      obtain rfl := startId?_eq_some.mp isStart
      exact congrArg some (has.start_unique nested stands)

/-- The question before a move is answered as one would expect. -/
theorem branchAndGap_eq_ok_iff (nested : WellNested (drafts elements)) {target : Address}
    {answer : Nat × Nat × Nat} :
    branchAndGap elements id target = .ok answer ↔
      ∃ start finish gap, HasBranch elements id start finish ∧ target = .ofNat gap ∧
        gap ≤ elements.length ∧ (gap ≤ start ∨ finish < gap) ∧
          answer = (start, finish + 1, gap) := by
  unfold branchAndGap
  cases marks : markerOf? elements startId? id with
  | none =>
      refine ⟨nofun, ?_⟩
      rintro ⟨start, finish, gap, has, _⟩
      rw [markerOf?_of_hasBranch nested has] at marks
      cases marks
  | some start =>
      obtain ⟨marker, stands, isStart⟩ := markerOf?_eq_some marks
      obtain rfl := startId?_eq_some.mp isStart
      obtain ⟨finish, _, _, isEnd⟩ := nested.exists_end stands
      have has : HasBranch elements id start finish := ⟨stands, (isEnd finish).mpr rfl⟩
      dsimp only
      rw [has.findBranchEnd_eq nested, ok_bind]
      rcases gapAt_cases elements target with ⟨error, _, fails⟩ | ⟨gap, rfl, within, named⟩
      · rw [fails]
        refine ⟨nofun, ?_⟩
        rintro ⟨_, _, gap, _, rfl, within, _⟩
        rw [gapAt_eq_ok_iff.mpr ⟨rfl, within⟩] at fails
        cases fails
      rw [named, ok_bind]
      by_cases inside : (start < gap && gap < finish + 1) = true
      · rw [if_pos inside]
        refine ⟨nofun, ?_⟩
        rintro ⟨other, last, own, hasToo, same, _, outside, _⟩
        obtain ⟨rfl, rfl⟩ := has.unique nested hasToo
        obtain rfl := Address.ofNat_inj.mp same
        rw [Bool.and_eq_true, decide_eq_true_iff, decide_eq_true_iff] at inside
        omega
      · rw [if_neg inside]
        constructor
        · rintro ⟨⟩
          rw [Bool.and_eq_true, decide_eq_true_iff, decide_eq_true_iff] at inside
          exact ⟨start, finish, gap, has, rfl, within, by omega, rfl⟩
        · rintro ⟨other, last, own, hasToo, same, _, _, rfl⟩
          obtain ⟨rfl, rfl⟩ := has.unique nested hasToo
          obtain rfl := Address.ofNat_inj.mp same
          rfl

end Handles

/-! ### The move -/

/-- The drafts of a sequence with the branch among them in another gap. -/
def movedDrafts (first block last : List Draft) (gap : Nat) : List Draft :=
  (first ++ last).take (gapWithoutBranch first.length block.length gap) ++ block ++
    (first ++ last).drop (gapWithoutBranch first.length block.length gap)

section Moves

variable {rung : Rung} {nextId gap : Nat} {id : BranchId} {target : Address}
  {rail : Option BranchId} {first block last : List Draft}

/-- The check of the rail, made without the branch, asks for the rail of the gap before that. -/
theorem checkRail_without_iff (isBranch : IsBranch id block) {elements remaining : List Element}
    (annotates : annotate (first ++ block ++ last) = .ok elements)
    (annotatesRest : annotate (first ++ last) = .ok remaining)
    (within : gap ≤ (first ++ block ++ last).length)
    (outside : gap ≤ first.length ∨ first.length + block.length ≤ gap) :
    checkRail remaining (gapWithoutBranch first.length block.length gap) rail = .ok () ↔
      railAtGap elements gap = rail := by
  have bounded := gapWithoutBranch_le within outside
  rw [← isBranch.railAtGap_remove annotates annotatesRest within outside]
  obtain rest := drafts_of_annotate annotatesRest
  rw [← rest, length_drafts] at bounded
  exact checkRail_eq_ok_iff (rest.symm ▸ annotatesRest) bounded

/-- A move that has found the branch and the gap is decided by the rail of the gap. -/
theorem on_moveBranch_of_asked (sound : OpenRung.IsSound ⟨rung, nextId⟩)
    (split : drafts rung.elements = first ++ block ++ last) (isBranch : IsBranch id block)
    (asked : branchAndGap rung.elements id target =
      .ok (first.length, first.length + block.length, gap))
    (within : gap ≤ rung.elements.length)
    (outside : gap ≤ first.length ∨ first.length + block.length ≤ gap) :
    ∃ elements, annotate (movedDrafts first block last gap) = .ok elements ∧
      (railAtGap rung.elements gap = rail → (moveBranch id target rail).on ⟨rung, nextId⟩ =
        (.ok id, ⟨.ofElements elements rung.comment, nextId⟩)) ∧
      (railAtGap rung.elements gap ≠ rail → ∃ error,
        (moveBranch id target rail).on ⟨rung, nextId⟩ = (.error error, ⟨rung, nextId⟩)) := by
  have nested : WellNested (first ++ block ++ last) := split ▸ sound.wellNested
  obtain ⟨remaining, annotatesRest⟩ :=
    exists_annotate_iff.mpr (nested.remove fun opened _ => isBranch.neutral opened)
  obtain ⟨elements, annotates, commits⟩ := exists_commit (nested.moveBranch isBranch
    (gapWithoutBranch first.length block.length gap)) ⟨rung, nextId⟩
  have annotated : annotate (first ++ block ++ last) = .ok rung.elements :=
    split ▸ sound.rung.annotated
  have inSource : gap ≤ (first ++ block ++ last).length := by
    rwa [← split, length_drafts]
  have checks := @checkRail_without_iff _ _ rail _ _ _ isBranch _ _ annotated annotatesRest
    inSource outside
  have moving : ((drafts rung.elements).take (first.length + block.length)).drop first.length =
      block := by
    rw [split, ← List.length_append, List.take_left, List.drop_left]
  have others : (drafts rung.elements).take first.length ++
      (drafts rung.elements).drop (first.length + block.length) = first ++ last := by
    rw [split, ← List.length_append, List.drop_left, List.append_assoc, List.take_left]
  have unfolded : (moveBranch id target rail).on ⟨rung, nextId⟩ = Action.on (do
      .settled (checkRail remaining (gapWithoutBranch first.length block.length gap) rail)
      commit (movedDrafts first block last gap)
      pure id) ⟨rung, nextId⟩ := by
    unfold moveBranch
    rw [Action.on_bind_ask, elements_mk, asked]
    dsimp only
    rw [Action.on_bind, Action.on_get]
    dsimp only
    rw [elements_mk, others, moving, Action.on_bind, Action.on_settled, annotatesRest]
    rfl
  refine ⟨elements, annotates, fun onRail => ?_, fun offRail => ?_⟩
  · rw [unfolded, checks.mpr onRail, Action.on_bind, Action.on_settled]
    dsimp only
    rw [movedDrafts, Action.on_bind_of_ok commits]
    rfl
  · cases passes : checkRail remaining (gapWithoutBranch first.length block.length gap) rail with
    | error error =>
        refine ⟨error, ?_⟩
        rw [unfolded, passes, Action.on_bind, Action.on_settled]
    | ok passed => exact absurd (checks.mp passes) offRail

/-- A branch goes to any gap that is not inside it and is named with its rail. -/
theorem on_moveBranch (sound : OpenRung.IsSound ⟨rung, nextId⟩)
    (split : drafts rung.elements = first ++ block ++ last) (isBranch : IsBranch id block)
    (within : gap ≤ rung.elements.length)
    (outside : gap ≤ first.length ∨ first.length + block.length ≤ gap) :
    ∃ elements, annotate (movedDrafts first block last gap) = .ok elements ∧
      (moveBranch id (.ofNat gap) (railAtGap rung.elements gap)).on ⟨rung, nextId⟩ =
        (.ok id, ⟨.ofElements elements rung.comment, nextId⟩) := by
  have positive := length_pos_of_isBranch isBranch
  have asked : branchAndGap rung.elements id (.ofNat gap) =
      .ok (first.length, first.length + block.length, gap) := by
    refine (branchAndGap_eq_ok_iff sound.wellNested).mpr
      ⟨_, _, gap, hasBranch_of_split split isBranch, rfl, within, by omega, ?_⟩
    rw [Nat.sub_add_cancel (by omega)]
  obtain ⟨elements, annotates, succeeds, _⟩ :=
    on_moveBranch_of_asked sound split isBranch asked within outside
  exact ⟨elements, annotates, succeeds rfl⟩

/-- What a move asks for is there if it succeeds. -/
theorem exists_of_on_moveBranch (sound : OpenRung.IsSound ⟨rung, nextId⟩) {answer : BranchId}
    {after : OpenRung}
    (succeeds : (moveBranch id target rail).on ⟨rung, nextId⟩ = (.ok answer, after)) :
    ∃ start finish gap, HasBranch rung.elements id start finish ∧ target = .ofNat gap ∧
      LiesOutside rung.elements start finish gap rail := by
  have unfolded := succeeds
  unfold moveBranch at unfolded
  obtain ⟨found, asked, _⟩ := Action.exists_of_on_bind_ask unfolded
  have asked : branchAndGap rung.elements id target = .ok found := asked
  obtain ⟨start, finish, gap, has, rfl, within, outside, rfl⟩ :=
    (branchAndGap_eq_ok_iff sound.wellNested).mp asked
  obtain ⟨first, block, last, split, isBranch, rfl, ends⟩ := has.exists_split sound.wellNested
  refine ⟨_, finish, gap, has, rfl, within, outside, ?_⟩
  by_contra offRail
  rw [← ends] at asked
  obtain ⟨_, _, _, fails⟩ :=
    on_moveBranch_of_asked sound split isBranch asked within (by omega)
  obtain ⟨error, failed⟩ := fails offRail
  rw [failed] at succeeds
  cases succeeds

/-! ### The sequence after a move -/

section Parts

variable {elements : List Element} {start finish : Nat}

theorem unplaced_elementsAround (isBranch : IsBranch id block)
    (annotates : annotate (first ++ block ++ last) = .ok elements)
    (starts : first.length = start) (ends : first.length + block.length = finish + 1) :
    (elementsAround elements start finish).map Element.unplaced =
      unplacedWithin [] (first ++ last) := by
  unfold elementsAround
  rw [List.map_append, List.map_take, List.map_drop, unplaced_of_annotate annotates,
    isBranch.unplacedWithin_append, List.drop_left' (by simpa using ends), List.append_assoc,
    List.take_left' (by simpa using starts), unplacedWithin_append]

theorem unplaced_elementsFrom (isBranch : IsBranch id block)
    (annotates : annotate (first ++ block ++ last) = .ok elements)
    (starts : first.length = start) (ends : first.length + block.length = finish + 1) :
    (elementsFrom elements start finish).map Element.unplaced =
      unplacedWithin (framesAfter [] first) block := by
  unfold elementsFrom
  rw [List.map_drop, List.map_take, unplaced_of_annotate annotates,
    isBranch.unplacedWithin_append, List.take_left' (by simpa using ends),
    List.drop_left' (by simpa using starts)]

end Parts

/-- A branch between other drafts than before, but the same ones around both, has moved. -/
theorem hasMoved_of_annotate (isBranch : IsBranch id block) {before after : List Element}
    {start finish : Nat} (starts : first.length = start)
    (ends : first.length + block.length = finish + 1)
    (annotates : annotate (first ++ block ++ last) = .ok before)
    (annotatesAfter : annotate (movedDrafts first block last gap) = .ok after)
    (within : gap ≤ (first ++ block ++ last).length) (outside : gap ≤ start ∨ finish < gap) :
    HasMoved before after start finish gap := by
  subst starts
  have apart : gap ≤ first.length ∨ first.length + block.length ≤ gap := by omega
  have positive := length_pos_of_isBranch isBranch
  have landing : movedStart first.length finish gap =
      gapWithoutBranch first.length block.length gap := by
    rw [movedStart, ← ends, Nat.add_sub_cancel_left]
  have startsAfter : ((first ++ last).take
      (gapWithoutBranch first.length block.length gap)).length =
        movedStart first.length finish gap := by
    rw [landing, List.length_take_of_le (gapWithoutBranch_le within apart)]
  have endsAfter : ((first ++ last).take
      (gapWithoutBranch first.length block.length gap)).length + block.length =
        movedFinish first.length finish gap + 1 := by
    rw [startsAfter, movedFinish]
    omega
  have startWithin : first.length ≤ (first ++ block ++ last).length := by simp
  have upToStart : (first ++ block ++ last).take first.length = first := by
    rw [List.append_assoc, List.take_left]
  obtain ⟨rail, level⟩ := railAtGap_and_levelAtGap annotates startWithin
  obtain ⟨newRail, newLevel⟩ := railAtGap_and_levelAtGap annotates within
  rw [upToStart] at rail level
  constructor
  · rw [unplaced_elementsAround isBranch annotatesAfter startsAfter endsAfter,
      List.take_append_drop, unplaced_elementsAround isBranch annotates rfl ends]
  · have own := unplaced_elementsFrom isBranch annotates rfl ends
    have moved := unplaced_elementsFrom isBranch annotatesAfter startsAfter endsAfter
    rw [isBranch.framesAfter_take apart] at moved
    have shifts := @shifts_unplacedWithin (framesAfter [] first)
      (framesAfter [] ((first ++ block ++ last).take gap)) block [] 0 isBranch.openAfter?_eq
    rw [← rail, ← newRail, List.nil_append, List.nil_append, ← own, ← moved,
      List.forall₂_map_left_iff, List.forall₂_map_right_iff] at shifts
    refine ⟨_, _, level, newLevel, shifts.imp fun element twin shifted => ?_⟩
    exact ⟨shifted.draft_eq, shifted.level, shifted.rail⟩

/-- A branch that has been moved goes back to where it was, and the rung is the old one. -/
theorem on_moveBranch_back {rung : Rung} {nextId finish : Nat}
    (sound : OpenRung.IsSound ⟨rung, nextId⟩)
    (split : drafts rung.elements = first ++ block ++ last) (isBranch : IsBranch id block)
    (ends : first.length + block.length = finish + 1)
    (within : gap ≤ rung.elements.length) (outside : gap ≤ first.length ∨ finish < gap)
    {after : Rung} {rail : Option BranchId}
    (succeeds : (moveBranch id (.ofNat gap) rail).on ⟨rung, nextId⟩ = (.ok id, ⟨after, nextId⟩))
    (annotates : annotate (movedDrafts first block last gap) = .ok after.elements)
    (comment : after.comment = rung.comment) :
    (moveBranch id (.ofNat (gapBack first.length finish gap))
        (railAtGap rung.elements first.length)).on ⟨after, nextId⟩ =
      (.ok id, ⟨rung, nextId⟩) := by
  have atomic : IsAtomic (fun _ => True) (moveBranch id (.ofNat gap) rail) :=
    moveBranch_isAtomic id _ rail
  have soundAfter := (atomic.edited sound succeeds).sound
  have apart : gap ≤ first.length ∨ first.length + block.length ≤ gap := by omega
  have inSource : gap ≤ (first ++ block ++ last).length := by rwa [← split, length_drafts]
  have bounded := gapWithoutBranch_le inSource apart
  -- The branch stands between two parts of what is left without it.
  obtain ⟨front, rear, whole, front_length⟩ := exists_split_at_gap bounded
  have splitAfter : drafts after.elements = front ++ block ++ rear := by
    rw [drafts_of_annotate annotates, movedDrafts, whole, ← front_length, List.take_left,
      List.drop_left]
  have backOutside := gapBack_outside gap ends
  have start_eq := gapWithoutBranch_gapBack gap ends
  rw [← front_length] at backOutside start_eq
  have backWithin : gapBack first.length finish gap ≤ (front ++ block ++ rear).length := by
    have lengths := congrArg List.length whole
    simp only [List.length_append] at lengths ⊢
    rw [gapBack]
    split <;> omega
  have sameRail : railAtGap after.elements (gapBack first.length finish gap) =
      railAtGap rung.elements first.length := by
    have startWithin : first.length ≤ (drafts rung.elements).length := by
      rw [split]
      simp
    rw [← splitAfter] at backWithin
    rw [(railAtGap_and_levelAtGap soundAfter.rung.annotated backWithin).1,
      (railAtGap_and_levelAtGap sound.rung.annotated startWithin).1]
    change innermostRail (framesAfter [] ((drafts after.elements).take _)) =
      innermostRail (framesAfter [] ((drafts rung.elements).take _))
    rw [splitAfter, ← isBranch.framesAfter_take backOutside, start_eq, ← whole, List.take_left,
      split, List.append_assoc, List.take_left]
  have within : gapBack first.length finish gap ≤ after.elements.length := by
    rwa [← length_drafts, splitAfter]
  obtain ⟨elements, annotatesBack, moves⟩ :=
    on_moveBranch soundAfter splitAfter isBranch within backOutside
  rw [sameRail] at moves
  rw [moves, comment]
  have source : movedDrafts front block rear (gapBack first.length finish gap) =
      drafts rung.elements := by
    rw [movedDrafts, start_eq, ← whole, List.take_left, List.drop_left, split]
  rw [source] at annotatesBack
  rw [sound.rung.eq_of_annotate annotatesBack]

end Moves

/--
A branch of a reachable routine is moved exactly if its handle is that of a start marker and
the target is a gap outside the branch, named with the rail on which it lies before the move.
The branch then stands in that gap as it did in its old one, the others are what they were, and
the move back to its old gap on its old rail gives the rung that there was.
-/
theorem moveBranch_exact_and_reversible {routine : Routine} (reachable : routine.Reachable)
    {rung : Rung} (isRung : rung ∈ routine.rungs) (id : BranchId) (target : Address)
    (rail : Option BranchId) :
    ((∃ answer after,
        (moveBranch id target rail).on ⟨rung, routine.nextId⟩ = (.ok answer, after)) ↔
      ∃ start finish gap, HasBranch rung.elements id start finish ∧ target = .ofNat gap ∧
        LiesOutside rung.elements start finish gap rail) ∧
    ∀ answer after,
      (moveBranch id target rail).on ⟨rung, routine.nextId⟩ = (.ok answer, after) →
        ∃ start finish gap, HasBranch rung.elements id start finish ∧ target = .ofNat gap ∧
          answer = id ∧ after.nextId = routine.nextId ∧ after.rung.comment = rung.comment ∧
          HasMoved rung.elements after.rung.elements start finish gap ∧
          (moveBranch id (.ofNat (gapBack start finish gap))
              (railAtGap rung.elements start)).on after =
            (.ok id, ⟨rung, routine.nextId⟩) := by
  obtain ⟨index, stands⟩ := List.getElem?_of_mem isRung
  have sound := reachable.isSound.openRung stands
  have moves {start finish gap : Nat} (has : HasBranch rung.elements id start finish)
      (lies : LiesOutside rung.elements start finish gap rail) :
      ∃ after : Rung, (moveBranch id (.ofNat gap) rail).on ⟨rung, routine.nextId⟩ =
          (.ok id, ⟨after, routine.nextId⟩) ∧ after.comment = rung.comment ∧
        HasMoved rung.elements after.elements start finish gap ∧
        (moveBranch id (.ofNat (gapBack start finish gap))
            (railAtGap rung.elements start)).on ⟨after, routine.nextId⟩ =
          (.ok id, ⟨rung, routine.nextId⟩) := by
    obtain ⟨within, outside, rfl⟩ := lies
    obtain ⟨first, block, last, split, isBranch, rfl, ends⟩ := has.exists_split sound.wellNested
    obtain ⟨elements, annotates, succeeds⟩ :=
      on_moveBranch sound split isBranch within (by omega)
    refine ⟨_, succeeds, rfl, ?_, on_moveBranch_back sound split isBranch ends within outside
      succeeds annotates rfl⟩
    apply hasMoved_of_annotate isBranch rfl ends (split ▸ sound.rung.annotated) annotates _ outside
    rwa [← split, length_drafts]
  refine ⟨⟨?_, ?_⟩, ?_⟩
  · rintro ⟨answer, after, succeeds⟩
    exact exists_of_on_moveBranch sound succeeds
  · rintro ⟨start, finish, gap, has, rfl, lies⟩
    obtain ⟨after, succeeds, _⟩ := moves has lies
    exact ⟨id, _, succeeds⟩
  · intro answer after succeeds
    obtain ⟨start, finish, gap, has, rfl, lies⟩ := exists_of_on_moveBranch sound succeeds
    obtain ⟨final, succeedsToo, comment, hasMoved, back⟩ := moves has lies
    cases succeeds.symm.trans succeedsToo
    exact ⟨start, finish, gap, has, rfl, rfl, rfl, comment, hasMoved, back⟩

/-- The branch of the first sample rung goes behind the coil, and back to where it was. -/
theorem moveBranch_exact_and_reversible_of_sample :
    ∃ routine rung after start back, Routine.ofSource Routine.sampleSource = .ok routine ∧
      rung ∈ routine.rungs ∧
      (moveBranch (.ofNat 0) (.ofNat 6) none).on ⟨rung, routine.nextId⟩ =
        (.ok (.ofNat 0), after) ∧
      (moveBranch (.ofNat 0) (.ofNat back) (railAtGap rung.elements start)).on after =
        (.ok (.ofNat 0), ⟨rung, routine.nextId⟩) := by
  have computed : (Routine.ofSource Routine.sampleSource).toOption.map (fun routine =>
      routine.rungs.head?.map fun rung =>
        ((moveBranch (.ofNat 0) (.ofNat 6) none).on ⟨rung, routine.nextId⟩).1.toOption) =
          some (some (some (.ofNat 0))) := by
    decide +kernel
  obtain ⟨routine, loads, moved⟩ := exists_ok_of_map computed
  obtain ⟨rung, isFirst, answered⟩ := Option.map_eq_some_iff.mp moved
  have isRung := List.mem_of_head? isFirst
  obtain ⟨after, moves⟩ : ∃ after,
      (moveBranch (.ofNat 0) (.ofNat 6) none).on ⟨rung, routine.nextId⟩ =
        (.ok (.ofNat 0), after) :=
    ⟨_, Prod.ext (toOption_eq_some_iff.mp answered) rfl⟩
  obtain ⟨start, finish, gap, _, _, _, _, _, _, back⟩ :=
    (moveBranch_exact_and_reversible (.loaded loads) isRung (.ofNat 0) (.ofNat 6) none).2
      (.ofNat 0) after moves
  exact ⟨routine, rung, after, start, _, loads, isRung, moves, back⟩

end Rung
end LadderDiagram
