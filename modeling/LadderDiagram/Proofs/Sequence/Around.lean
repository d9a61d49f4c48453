import LadderDiagram.Proofs.List
import LadderDiagram.Proofs.Sequence.Search

/-!
# The branches around an element

A branch is around an element if it is opened before the element and its end marker stands
behind it.  The markers of a branch are not around themselves.  The annotation counts the
branches that are open in its walk, and this is the number of branches around each element.
-/

namespace LadderDiagram

/-- The branches that are opened before an element of a sequence and end behind it. -/
def branchesAround (source : List Draft) (place : Nat) : List BranchId :=
  (openedIds (source.take place)).filter fun id =>
    decide (Draft.branchEnd id ∈ source.drop (place + 1))

theorem branchesAround_append (first rest : List Draft) (draft : Draft) :
    branchesAround (first ++ draft :: rest) first.length =
      (openedIds first).filter fun id => decide (Draft.branchEnd id ∈ rest) := by
  unfold branchesAround
  rw [List.take_left, List.drop_append, List.drop_eq_nil_of_le (Nat.le_succ _),
    Nat.add_sub_cancel_left]
  rfl

section Around

variable {first rest : List Draft} {draft : Draft} {opened left : List BranchId}

/-- A branch that is not opened any more is closed if it is open. -/
theorem branchEnd_mem_iff (pairsUp : branchesAfter? left rest = some []) {id : BranchId}
    (once : id ∉ openedIds rest) : Draft.branchEnd id ∈ rest ↔ id ∈ left := by
  have counted := branchesAfter?_count pairsUp id
  have notOpened : rest.count (.branchStart id) = 0 :=
    List.count_eq_zero.mpr fun member => once (mem_openedIds.mpr (Or.inl member))
  rw [← List.count_pos_iff, ← List.count_pos_iff]
  rw [List.count_nil] at counted
  omega

/-- The branches that are open have been opened. -/
theorem count_le_of_branchesAfter? (pairsUp : branchesAfter? [] first = some opened)
    (id : BranchId) : opened.count id ≤ (openedIds first).count id := by
  have counted := branchesAfter?_count pairsUp id
  have opens := count_branchStart_le first id
  rw [List.count_nil] at counted
  omega

theorem nodup_of_branchesAfter? (pairsUp : branchesAfter? [] first = some opened)
    (distinct : (openedIds first).Nodup) : opened.Nodup :=
  List.nodup_iff_count_le_one.mpr fun id =>
    Nat.le_trans (count_le_of_branchesAfter? pairsUp id)
      (List.nodup_iff_count_le_one.mp distinct id)

theorem mem_openedIds_of_branchesAfter? (pairsUp : branchesAfter? [] first = some opened)
    {id : BranchId} (member : id ∈ opened) : id ∈ openedIds first :=
  List.count_pos_iff.mp (Nat.lt_of_lt_of_le (List.count_pos_iff.mpr member)
    (count_le_of_branchesAfter? pairsUp id))

/-- The branches that are open on both sides of an element, in one list. -/
theorem exists_openAround {before : List BranchId}
    (behind : branchesAfterDraft? opened draft = some left) (distinct : opened.Nodup)
    (isOpened : ∀ id ∈ opened, id ∈ before)
    (fresh : ∀ id ∈ before, draft ≠ .branchStart id) :
    ∃ around : List BranchId, around.length = min opened.length left.length ∧ around.Nodup ∧
      ∀ id, id ∈ around ↔ id ∈ before ∧ id ∈ left := by
  have allOpened (id : BranchId) : id ∈ opened ↔ id ∈ before ∧ id ∈ opened :=
    ⟨fun member => ⟨isOpened id member, member⟩, And.right⟩
  cases draft with
  | instruction content =>
      cases behind
      exact ⟨opened, (Nat.min_self _).symm, distinct, allOpened⟩
  | branchStart own =>
      cases behind
      refine ⟨opened, (Nat.min_eq_left (Nat.le_succ _)).symm, distinct, fun id => ?_⟩
      rw [allOpened, List.mem_cons]
      refine and_congr_right fun member => (or_iff_right ?_).symm
      rintro rfl
      exact fresh id member rfl
  | branchNext own =>
      cases opened with
      | nil => cases behind
      | cons innermost outer =>
          cases behind
          exact ⟨innermost :: outer, (Nat.min_self _).symm, distinct, allOpened⟩
  | branchEnd own =>
      have ends : branchesAfter? opened [.branchEnd own] = some left := by
        rw [branchesAfter?_cons, behind]
        rfl
      obtain ⟨outer, rfl, same⟩ := exists_of_branchesAfter?_branchEnd ends
      cases same
      exact ⟨left, (Nat.min_eq_right (Nat.le_succ _)).symm, (List.nodup_cons.mp distinct).2,
        fun id => ⟨fun member => ⟨isOpened id (List.mem_cons_of_mem _ member), member⟩, And.right⟩⟩

/-- The branches around an element are those that are open both before and behind it. -/
theorem length_branchesAround (nested : WellNested (first ++ draft :: rest))
    (before : branchesAfter? [] first = some opened)
    (behind : branchesAfterDraft? opened draft = some left) :
    (branchesAround (first ++ draft :: rest) first.length).length =
      min opened.length left.length := by
  have closes : branchesAfter? left rest = some [] := by
    have whole := nested.closes
    rw [branchesAfter?_append, before, Option.bind_some, branchesAfter?_cons, behind] at whole
    exact whole
  have distinct := nested.distinct
  rw [openedIds_append, List.nodup_append] at distinct
  obtain ⟨firstDistinct, _, apart⟩ := distinct
  have notLater : ∀ id ∈ openedIds first, id ∉ openedIds rest := by
    intro id member later
    refine apart id member id (mem_openedIds.mpr ?_) rfl
    exact (mem_openedIds.mp later).imp (List.mem_cons_of_mem _) (List.mem_cons_of_mem _)
  have fresh : ∀ id ∈ openedIds first, draft ≠ .branchStart id := by
    rintro id member rfl
    exact apart id member id (mem_openedIds.mpr (Or.inl List.mem_cons_self)) rfl
  obtain ⟨around, length_eq, aroundDistinct, mem_around⟩ :=
    exists_openAround behind (nodup_of_branchesAfter? before firstDistinct)
      (fun _ => mem_openedIds_of_branchesAfter? before) fresh
  -- No branch is opened twice, so the two lists are as long if they have the same members.
  rw [branchesAround_append, ← length_eq]
  refine List.Perm.length_eq ((List.perm_ext_iff_of_nodup (firstDistinct.filter _)
    aroundDistinct).mpr fun id => ?_)
  rw [List.mem_filter, decide_eq_true_iff, mem_around]
  exact and_congr_right fun member => branchEnd_mem_iff closes (notLater id member)

end Around

namespace WalkState

/-- The level that a step gives to an element counts the branches open on both sides of it. -/
theorem branchLevel_of_step {state next : WalkState} {draft : Draft} {element : Element}
    (steps : state.step draft = .ok (element, next)) :
    element.branchLevel = .ofNat (min state.openIds.length next.openIds.length) := by
  unfold openIds
  rw [List.length_map, List.length_map]
  cases stepsTo_of_step steps with
  | instruction content =>
      rw [Nat.min_self]
      rfl
  | branchStart free =>
      exact congrArg Address.ofNat (Nat.min_eq_left (Nat.le_succ state.frames.length)).symm
  | branchNext opened free =>
      rw [opened, List.length_cons, List.length_cons, Nat.min_self, nextElement, opened,
        List.length_cons]
  | branchEnd opened same =>
      rw [opened]
      exact congrArg Address.ofNat (Nat.min_eq_right (Nat.le_succ _)).symm

theorem ne_nil_of_walk {state : WalkState} {first rest : List Element} {element : Element}
    {source : List Draft} (walks : state.walk source = .ok (first ++ element :: rest)) :
    source ≠ [] := by
  rintro rfl
  have none := (drafts_of_walk walks).1
  exact absurd (List.map_eq_nil_iff.mp none) (by simp)

/-- The branches open on both sides of an element of a walk, and its level. -/
theorem exists_openIds_of_walk {state : WalkState} {first rest : List Element}
    {element : Element} {source : List Draft}
    (walks : state.walk source = .ok (first ++ element :: rest)) :
    ∃ opened left, branchesAfter? state.openIds (drafts first) = some opened ∧
      branchesAfterDraft? opened element.draft = some left ∧
      element.branchLevel = .ofNat (min opened.length left.length) := by
  induction first generalizing state source with
  | nil =>
      obtain ⟨draft, others, rfl⟩ := List.exists_cons_of_ne_nil (ne_nil_of_walk walks)
      obtain ⟨own, next, later, steps, _, same⟩ := exists_of_walk_cons walks
      obtain ⟨rfl, rfl⟩ := List.cons.inj same
      have advance := advances_of_step steps
      refine ⟨state.openIds, next.openIds, rfl, ?_, branchLevel_of_step steps⟩
      rw [advance.draft_eq]
      exact advance.branches
  | cons head more ih =>
      obtain ⟨draft, others, rfl⟩ := List.exists_cons_of_ne_nil (ne_nil_of_walk walks)
      obtain ⟨own, next, later, steps, walksOn, same⟩ := exists_of_walk_cons walks
      obtain ⟨rfl, rfl⟩ := List.cons.inj same
      have advance := advances_of_step steps
      obtain ⟨opened, left, before, behind, level⟩ := ih walksOn
      refine ⟨opened, left, ?_, behind, level⟩
      change branchesAfter? state.openIds (head.draft :: drafts more) = some opened
      rw [branchesAfter?_cons, advance.draft_eq, advance.branches]
      exact before

end WalkState

/-- The level of an element is the number of branches around it. -/
theorem branchLevel_of_annotate {source : List Draft} {elements : List Element}
    (annotates : annotate source = .ok elements) {place : Nat} {element : Element}
    (stands : elements[place]? = some element) :
    element.branchLevel = .ofNat (branchesAround source place).length := by
  obtain ⟨first, rest, rfl, rfl⟩ := exists_split_at_place stands
  obtain ⟨opened, left, before, behind, level⟩ := WalkState.exists_openIds_of_walk annotates
  have nested := wellNested_of_annotate annotates
  rw [← drafts_of_annotate annotates] at nested ⊢
  have split : drafts (first ++ element :: rest) = drafts first ++ element.draft :: drafts rest :=
    List.map_append
  rw [split] at nested ⊢
  rw [level, ← length_branchesAround nested before behind, drafts, List.length_map]

end LadderDiagram
