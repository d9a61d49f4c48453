import LadderDiagram.Proofs.Sequence.Nesting

/-!
# Sequences of trees

The sequence of a tree takes its handles in reading order, from the next free one
on and without a gap.  It leaves open what was open before it, so the sequence of a
whole rung is well nested, and no two rungs that are read one after the other share
a handle.
-/

namespace LadderDiagram
namespace RungText

/-- A run of drafts that leaves the branches open as they were and takes the next handles. -/
structure Counts (opened : List BranchId) (next : Nat) (result : List Draft × Nat) : Prop where
  next_le : next ≤ result.2
  neutral : branchesAfter? opened result.1 = some opened
  handles : openedIds result.1 = (List.range' next (result.2 - next)).map Address.ofNat

variable {opened : List BranchId} {next between after : Nat} {first second inner : List Draft}

theorem Counts.nil (opened : List BranchId) (next : Nat) : Counts opened next ([], next) := by
  refine ⟨Nat.le_refl next, rfl, ?_⟩
  rw [Nat.sub_self]
  rfl

theorem Counts.append (counts : Counts opened next (first, between))
    (others : Counts opened between (second, after)) :
    Counts opened next (first ++ second, after) := by
  have lower : next ≤ between := counts.next_le
  have upper : between ≤ after := others.next_le
  refine ⟨Nat.le_trans lower upper, ?_, ?_⟩
  · rw [branchesAfter?_append, counts.neutral]
    exact others.neutral
  · rw [openedIds_append, counts.handles, others.handles, ← List.map_append]
    congr 1
    have joined := @List.range'_append_1 next (between - next) (after - between)
    rw [Nat.add_sub_cancel' lower] at joined
    rw [joined]
    congr 1
    omega

theorem Counts.branch (counts : Counts (.ofNat next :: opened) (next + 1) (inner, after)) :
    Counts opened next
      (.branchStart (.ofNat next) :: inner ++ [.branchEnd (.ofNat next)], after) := by
  have lower : next + 1 ≤ after := counts.next_le
  refine ⟨Nat.le_of_succ_le lower, ?_, ?_⟩
  · rw [List.cons_append, branchesAfter?_branchStart, branchesAfter?_append, counts.neutral]
    exact branchesAfter?_branchEnd _ _
  · rw [List.cons_append, openedIds_branchStart, openedIds_append, counts.handles]
    have taken : after - next = after - (next + 1) + 1 := by omega
    rw [taken, List.range'_succ]
    simp

theorem Counts.further {innermost : BranchId}
    (counts : Counts (innermost :: opened) (next + 1) (inner, after)) :
    Counts (innermost :: opened) next (.branchNext (.ofNat next) :: inner, after) := by
  have lower : next + 1 ≤ after := counts.next_le
  refine ⟨Nat.le_of_succ_le lower, ?_, ?_⟩
  · rw [branchesAfter?_branchNext, counts.neutral]
  · rw [openedIds_branchNext, counts.handles]
    have taken : after - next = after - (next + 1) + 1 := by omega
    rw [taken, List.range'_succ, List.map_cons]

mutual

theorem counts_node (opened : List BranchId) :
    ∀ (next : Nat) (node : Node), Counts opened next (node.toDrafts next)
  | next, .instruction content => by
      refine ⟨Nat.le_refl next, rfl, ?_⟩
      simp [Node.toDrafts]
  | next, .branch rails => (counts_firstRail (.ofNat next) opened (next + 1) rails).branch

theorem counts_rail (opened : List BranchId) :
    ∀ (next : Nat) (nodes : List Node), Counts opened next (railDrafts next nodes)
  | next, [] => .nil opened next
  | next, node :: rest =>
      (counts_node opened next node).append (counts_rail opened (node.toDrafts next).2 rest)

theorem counts_firstRail (innermost : BranchId) (opened : List BranchId) :
    ∀ (next : Nat) (rails : List (List Node)),
      Counts (innermost :: opened) next (firstRailDrafts next rails)
  | next, [] => .nil (innermost :: opened) next
  | next, rail :: rest =>
      (counts_rail (innermost :: opened) next rail).append
        (counts_furtherRails innermost opened (railDrafts next rail).2 rest)

theorem counts_furtherRails (innermost : BranchId) (opened : List BranchId) :
    ∀ (next : Nat) (rails : List (List Node)),
      Counts (innermost :: opened) next (furtherRailDrafts next rails)
  | next, [] => .nil (innermost :: opened) next
  | next, rail :: rest =>
      (counts_rail (innermost :: opened) (next + 1) rail).further.append
        (counts_furtherRails innermost opened (railDrafts (next + 1) rail).2 rest)

end

/-- The sequence of a rung is well nested. -/
theorem wellNested_railDrafts (next : Nat) (nodes : List Node) :
    WellNested (railDrafts next nodes).1 := by
  have counts := counts_rail [] next nodes
  refine ⟨counts.neutral, ?_⟩
  rw [counts.handles]
  apply List.Nodup.map _ List.nodup_range'
  intro value other same
  exact Address.ofNat_inj.mp same

/-- The handles of a rung are the ones from the next free one on. -/
theorem mem_openedIds_railDrafts {next : Nat} {nodes : List Node} {id : BranchId} :
    id ∈ openedIds (railDrafts next nodes).1 ↔
      ∃ value, next ≤ value ∧ value < (railDrafts next nodes).2 ∧ id = .ofNat value := by
  have counts := counts_rail [] next nodes
  have lower : next ≤ (railDrafts next nodes).2 := counts.next_le
  rw [counts.handles, List.mem_map]
  constructor
  · rintro ⟨value, member, rfl⟩
    obtain ⟨above, below⟩ := List.mem_range'_1.mp member
    exact ⟨value, above, by omega, rfl⟩
  · rintro ⟨value, above, below, rfl⟩
    exact ⟨value, List.mem_range'_1.mpr ⟨above, by omega⟩, rfl⟩

end RungText
end LadderDiagram
