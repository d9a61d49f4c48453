import LadderDiagram.Proofs.RungText.Sequence
import LadderDiagram.Proofs.Sequence.Renaming

/-!
# Handles in reading order

The sequence that is made of a tree has handles that are counted off in the order in which its
markers stand.  So it is any other sequence of this tree with its handles renamed, as soon as those
are renamed to the numbers in their order.  Handles that have gaps and stand in any order are
renamed so by their places among all of them.
-/

namespace LadderDiagram

/-- Handles that are renamed to the numbers from `next` on, in their order. -/
def AreNumbered (names : BranchId → BranchId) : Nat → List BranchId → Prop
  | _, [] => True
  | next, id :: rest => names id = .ofNat next ∧ AreNumbered names (next + 1) rest

variable {names : BranchId → BranchId} {next : Nat}

theorem areNumbered_append {first rest : List BranchId} :
    AreNumbered names next (first ++ rest) ↔
      AreNumbered names next first ∧ AreNumbered names (next + first.length) rest := by
  induction first generalizing next with
  | nil => exact (and_iff_right trivial).symm
  | cons id others ih =>
      rw [List.cons_append, AreNumbered, ih, AreNumbered, and_assoc, List.length_cons,
        Nat.add_right_comm, Nat.add_assoc]

/-! ### Names for handles -/

theorem Address.toNat?_eq_some_iff {address : Address} {value : Nat} :
    address.toNat? = some value ↔ address = .ofNat value := by
  constructor
  · intro isNumber
    cases address with
    | whole own =>
        cases own with
        | ofNat own =>
            cases isNumber
            rfl
        | negSucc own => cases isNumber
    | other own => cases isNumber
  · rintro rfl
    rfl

/-- A handle with another number, if it is a number that handles are given as. -/
def BranchId.renumbered (change : Nat → Nat) (id : BranchId) : BranchId :=
  (id.toNat?.map fun value => Address.ofNat (change value)).getD id

theorem BranchId.renumbered_injective {change : Nat → Nat} (injective : Function.Injective change) :
    Function.Injective (BranchId.renumbered change) := by
  intro first second same
  unfold renumbered at same
  cases isFirst : first.toNat? with
  | none =>
      cases isSecond : second.toNat? with
      | none =>
          rw [isFirst, isSecond] at same
          exact same
      | some value =>
          rw [isFirst, isSecond] at same
          have isNumber : first = .ofNat (change value) := same
          rw [isNumber] at isFirst
          cases isFirst
  | some value =>
      cases isSecond : second.toNat? with
      | none =>
          rw [isFirst, isSecond] at same
          have isNumber : .ofNat (change value) = second := same
          rw [← isNumber] at isSecond
          cases isSecond
      | some other =>
          rw [isFirst, isSecond] at same
          obtain rfl := injective (Address.ofNat_inj.mp same)
          rw [Address.toNat?_eq_some_iff.mp isFirst, Address.toNat?_eq_some_iff.mp isSecond]

/-- A handle moved up behind so many others, if it is a number that handles are given as. -/
def BranchId.behind (count : Nat) (id : BranchId) : BranchId :=
  (id.toNat?.map fun value => Address.ofNat (count + value)).getD id

theorem BranchId.behind_ne_ofNat {count place : Nat} (bounded : place < count) (id : BranchId) :
    id.behind count ≠ .ofNat place := by
  unfold behind
  cases isNumber : id.toNat? with
  | none =>
      rintro (rfl : id = .ofNat place)
      cases isNumber
  | some value =>
      intro (same : Address.ofNat (count + value) = .ofNat place)
      have := Address.ofNat_inj.mp same
      omega

theorem BranchId.behind_injective (count : Nat) :
    Function.Injective (BranchId.behind count) :=
  renumbered_injective fun _ _ sums => Nat.add_left_cancel sums

/-- The place of a handle among some others; handles that are not among them come behind those. -/
def placeAmong (handles : List BranchId) (id : BranchId) : BranchId :=
  if id ∈ handles then .ofNat (handles.idxOf id) else id.behind handles.length

section PlaceAmong

variable {handles : List BranchId} {id : BranchId}

theorem placeAmong_of_mem (member : id ∈ handles) :
    placeAmong handles id = .ofNat (handles.idxOf id) := if_pos member

theorem placeAmong_of_not_mem (apart : id ∉ handles) :
    placeAmong handles id = id.behind handles.length := if_neg apart

theorem placeAmong_injective (handles : List BranchId) :
    Function.Injective (placeAmong handles) := by
  intro first second same
  by_cases isFirst : first ∈ handles <;> by_cases isSecond : second ∈ handles
  · rw [placeAmong_of_mem isFirst, placeAmong_of_mem isSecond, Address.ofNat_inj] at same
    exact (List.idxOf_inj isFirst).mp same
  · rw [placeAmong_of_mem isFirst, placeAmong_of_not_mem isSecond] at same
    exact absurd same.symm (BranchId.behind_ne_ofNat (List.idxOf_lt_length_of_mem isFirst) second)
  · rw [placeAmong_of_not_mem isFirst, placeAmong_of_mem isSecond] at same
    exact absurd same (BranchId.behind_ne_ofNat (List.idxOf_lt_length_of_mem isSecond) first)
  · rw [placeAmong_of_not_mem isFirst, placeAmong_of_not_mem isSecond] at same
    exact BranchId.behind_injective handles.length same

/-- The places of handles that are all different are their numbers. -/
theorem areNumbered_placeAmong (distinct : handles.Nodup) :
    AreNumbered (placeAmong handles) 0 handles := by
  have behind (first rest : List BranchId) (split : handles = first ++ rest) :
      AreNumbered (placeAmong handles) first.length rest := by
    induction rest generalizing first with
    | nil => trivial
    | cons id rest ih =>
        have member : id ∈ handles := split ▸ List.mem_append_right _ List.mem_cons_self
        have notBefore : id ∉ first := by
          rw [split, List.nodup_middle, List.nodup_cons] at distinct
          exact fun isBefore => distinct.1 (List.mem_append_left _ isBefore)
        have isPlace : handles.idxOf id = first.length := by
          rw [split, List.idxOf_append_of_notMem notBefore, List.idxOf_cons_self, Nat.add_zero]
        refine ⟨by rw [placeAmong_of_mem member, isPlace], ?_⟩
        have later := ih (first ++ [id]) (by rw [split, List.append_assoc]; rfl)
        rwa [List.length_append, List.length_singleton] at later
  exact behind [] handles rfl

end PlaceAmong

/-! ### Sequences of trees -/

namespace RungText

theorem railDrafts_branch (rails : List (List Node)) (rest : List Node) :
    railDrafts next (.branch rails :: rest) =
      (.branchStart (.ofNat next) :: ((firstRailDrafts (next + 1) rails).1 ++
          .branchEnd (.ofNat next) :: (railDrafts (firstRailDrafts (next + 1) rails).2 rest).1),
        (railDrafts (firstRailDrafts (next + 1) rails).2 rest).2) := by
  simp [railDrafts, Node.toDrafts]

/-- Further rails are those of a branch, behind one more marker. -/
theorem firstRailDrafts_cons (rail : List Node) {rails : List (List Node)}
    (nonempty : rails ≠ []) :
    firstRailDrafts next (rail :: rails) =
      ((railDrafts next rail).1 ++ .branchNext (.ofNat (railDrafts next rail).2) ::
          (firstRailDrafts ((railDrafts next rail).2 + 1) rails).1,
        (firstRailDrafts ((railDrafts next rail).2 + 1) rails).2) := by
  cases rails with
  | nil => exact absurd rfl nonempty
  | cons => rfl

mutual

/-- The sequence made of the tree of a sequence is that sequence with its handles counted off. -/
theorem IsTreeOf.railDrafts_eq {drafts : List Draft} {nodes : List Node} {next : Nat} :
    IsTreeOf drafts nodes → AreNumbered names next (openedIds drafts) →
      railDrafts next nodes =
        (drafts.map (Draft.rename names), next + (openedIds drafts).length)
  | .nil, _ => rfl
  | @IsTreeOf.instruction content drafts nodes tree, numbered => by
      have others : railDrafts next (.instruction content :: nodes) =
          (.instruction content :: (railDrafts next nodes).1, (railDrafts next nodes).2) := rfl
      rw [others, tree.railDrafts_eq numbered]
      rfl
  | @IsTreeOf.branch id inner drafts rails nodes areRails tree, numbered => by
      rw [openedIds_branchStart, openedIds_append, openedIds_branchEnd] at numbered ⊢
      obtain ⟨own, others⟩ := numbered
      obtain ⟨inside, behind⟩ := areNumbered_append.mp others
      rw [railDrafts_branch, areRails.firstRailDrafts_eq inside, tree.railDrafts_eq behind, ← own]
      refine Prod.ext ?_ ?_
      · simp [Draft.rename]
      · simp only [List.length_cons, List.length_append]
        omega

theorem AreRailsOf.firstRailDrafts_eq {drafts : List Draft} {rails : List (List Node)}
    {next : Nat} :
    AreRailsOf drafts rails → AreNumbered names next (openedIds drafts) →
      firstRailDrafts next rails =
        (drafts.map (Draft.rename names), next + (openedIds drafts).length)
  | @AreRailsOf.last drafts rail tree, numbered => by
      have alone : firstRailDrafts next [rail] =
          ((railDrafts next rail).1 ++ [], (railDrafts next rail).2) := rfl
      rw [alone, List.append_nil, tree.railDrafts_eq numbered]
  | @AreRailsOf.further id first others rail rails tree areRails, numbered => by
      rw [openedIds_append, openedIds_branchNext] at numbered ⊢
      obtain ⟨here, own, behind⟩ := areNumbered_append.mp numbered
      rw [firstRailDrafts_cons rail areRails.ne_nil, tree.railDrafts_eq here,
        areRails.firstRailDrafts_eq behind, ← own]
      refine Prod.ext ?_ ?_
      · simp [Draft.rename]
      · simp only [List.length_cons, List.length_append]
        omega

end

end RungText
end LadderDiagram
