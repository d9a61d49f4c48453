import LadderDiagram.Proofs.Layout.Placement

/-!
# Records in blocks

The pass appends the record of a branch or of a further rail where its marker stands, and
completes it in place when the branch is closed.  Among the records of a branch, those of
its further rails are each followed by the records of the branches on that rail; completing
them block by block gives the records that the recursion has.
-/

namespace LadderDiagram

namespace BranchPass

/-- Records in blocks: each further rail of a branch is followed by the branches on it. -/
def joined (blocks : List (Branch Rat × List (Branch Rat))) : List (Branch Rat) :=
  blocks.flatMap fun block => block.1 :: block.2

/-- The places of the first records of blocks, from a place on. -/
def headPlaces (start : Nat) : List (Branch Rat × List (Branch Rat)) → List Nat
  | [] => []
  | block :: rest => start :: headPlaces (start + (block.2.length + 1)) rest

theorem filterMap_headPlaces (before : List (Branch Rat))
    (blocks : List (Branch Rat × List (Branch Rat))) :
    (headPlaces before.length blocks).filterMap ((before ++ joined blocks)[·]?) =
      blocks.map Prod.fst := by
  induction blocks generalizing before with
  | nil => rfl
  | cons block rest ih =>
      have here : (before ++ joined (block :: rest))[before.length]? = some block.1 := by
        rw [List.getElem?_append_right (le_refl _), Nat.sub_self]
        rfl
      have moved := ih (before ++ block.1 :: block.2)
      rw [List.length_append, List.length_cons, List.append_assoc] at moved
      rw [headPlaces, List.filterMap_cons_some here]
      exact congrArg (List.cons block.1) moved

/-- Blocks may have their first records replaced in place. -/
theorem setAll_headPlaces (before : List (Branch Rat))
    {blocks others : List (Branch Rat × List (Branch Rat))}
    (same : blocks.map Prod.snd = others.map Prod.snd) :
    setAll (before ++ joined blocks) (headPlaces before.length blocks) (others.map Prod.fst) =
      before ++ joined others := by
  induction blocks generalizing before others with
  | nil =>
      obtain rfl : others = [] := List.map_eq_nil_iff.mp same.symm
      rfl
  | cons block rest ih =>
      obtain ⟨other, more, rfl, sameInner, sameRest⟩ := List.map_eq_cons_iff.mp same.symm
      have moved := ih (before ++ other.1 :: block.2) sameRest.symm
      rw [List.length_append, List.length_cons, List.append_assoc, List.append_assoc] at moved
      have replaced : (before ++ joined (block :: rest)).set before.length other.1 =
          before ++ (other.1 :: block.2 ++ joined rest) := by
        rw [List.set_append_right _ _ (le_refl _), Nat.sub_self]
        rfl
      rw [List.map_cons, headPlaces, setAll, replaced, moved, ← sameInner]
      rfl

end BranchPass

/-- The further rails of a branch in blocks; `record` gives the records of the rails. -/
def FurtherRails.blocks (config : LayoutConfig Rat) (input : RungInput Rat) (site : RailSite)
    (record : Nat → BranchId → Nat → RailTree → Branch Rat) (position : Nat) :
    FurtherRails → List (Branch Rat × List (Branch Rat))
  | .nil => []
  | .rail id own others =>
      (record position id site.row own,
          own.records config input (site.beside id) (position + 1) none) ::
        others.blocks config input (site.lowered own.rows) record
            (position + 1 + own.drafts.length)

theorem FurtherRails.records_eq_joined (config : LayoutConfig Rat) (input : RungInput Rat)
    (branch : Branch Rat) (site : RailSite) (position : Nat) (rails : FurtherRails) :
    rails.records config input site branch position =
      BranchPass.joined
        (rails.blocks config input site (branch.railRecord config input) position) := by
  cases rails with
  | nil => rfl
  | rail id own others =>
      rw [FurtherRails.records, FurtherRails.blocks,
        FurtherRails.records_eq_joined config input branch (site.lowered own.rows) _ others]
      rfl

theorem FurtherRails.map_snd_blocks (config : LayoutConfig Rat) (input : RungInput Rat)
    (first second : Nat → BranchId → Nat → RailTree → Branch Rat) (site : RailSite)
    (position : Nat) (rails : FurtherRails) :
    (rails.blocks config input site first position).map Prod.snd =
      (rails.blocks config input site second position).map Prod.snd := by
  cases rails with
  | nil => rfl
  | rail id own others =>
      exact congrArg (List.cons _)
        (others.map_snd_blocks config input first second (site.lowered own.rows) _)

/-- The record of a branch that has just been opened. -/
def RailSite.openRecord (site : RailSite) (config : LayoutConfig Rat) (input : RungInput Rat)
    (position : Nat) (id : BranchId) (startX : Rat) : Branch Rat where
  id := id
  rungNumber := input.rungNumber
  parentId := site.railId
  childIds := []
  rootId := site.rootId.getD id
  startPosition := .ofNat position
  endPosition := .ofNat position
  branchLevel := .ofNat site.level
  startX := startX
  endX := startX + config.sizes.branchMarker.width
  branchY := input.rowY config ((site.row + 1 : Nat) : Rat)
  startY := input.rowY config ((site.row + 1 : Nat) : Rat)
  endY := input.rowY config ((site.row + 1 : Nat) : Rat)

/-- The record of a further rail that has just been begun. -/
def Branch.openRailRecord (branch : Branch Rat) (config : LayoutConfig Rat)
    (input : RungInput Rat) (position : Nat) (id : BranchId) (row : Nat) (_ : RailTree) :
    Branch Rat :=
  { branch with
    id := id
    parentId := some branch.id
    childIds := []
    startPosition := .ofNat position
    endPosition := .ofNat position
    branchY := input.rowY config (row : Rat)
    startY := input.rowY config (row : Rat)
    endY := input.rowY config (row : Rat) }

variable {config : LayoutConfig Rat} {input : RungInput Rat}

@[simp] theorem Address.previous_ofNat_succ (value : Nat) :
    (Address.ofNat (value + 1)).previous = .ofNat value := by
  simp [Address.ofNat, Address.previous]

/-- Closing a branch ends its further rails where the recursion ends them. -/
theorem finishChildren_blocks (branch : Branch Rat) (site : RailSite) (position : Nat)
    (closing : BranchClosing Rat) (rails : FurtherRails)
    (bottom : closing.endY =
      input.rowY config ((site.row + rails.rows : Nat) : Rat) - 1) :
    BranchPass.finishChildren (.ofNat (position + rails.drafts.length)) closing
        ((rails.blocks config input site (branch.openRailRecord config input) position).map
          Prod.fst) =
      (rails.blocks config input site
        ({ branch with endX := closing.endX }.railRecord config input) position).map Prod.fst := by
  match rails with
  | .nil => rfl
  | .rail id own .nil =>
      have last : position + (FurtherRails.rail id own .nil).drafts.length =
          position + own.drafts.length + 1 := by
        simp [FurtherRails.drafts, Nat.add_assoc]
      have rows : (FurtherRails.rail id own .nil).rows = own.rows := rfl
      rw [rows] at bottom
      rw [last]
      simp only [FurtherRails.blocks, List.map_cons, List.map_nil, BranchPass.finishChildren,
        Address.previous_ofNat_succ, bottom]
      rfl
  | .rail id own (.rail nextId next others) =>
      have split : (FurtherRails.rail id own (.rail nextId next others)).rows =
          own.rows + (FurtherRails.rail nextId next others).rows := rfl
      rw [split, ← Nat.add_assoc] at bottom
      have later := finishChildren_blocks branch (site.lowered own.rows)
        (position + 1 + own.drafts.length) closing (.rail nextId next others) bottom
      have last : position + (FurtherRails.rail id own (.rail nextId next others)).drafts.length =
          position + 1 + own.drafts.length +
            (FurtherRails.rail nextId next others).drafts.length := by
        simp only [FurtherRails.drafts, List.length_cons, List.length_append]
        omega
      have next : position + 1 + own.drafts.length = position + own.drafts.length + 1 := by omega
      simp only [FurtherRails.blocks, List.map_cons] at later ⊢
      rw [last, BranchPass.finishChildren, later]
      congr 1
      simp only [Branch.openRailRecord, Branch.railRecord, RailSite.lowered, next,
        Address.previous_ofNat_succ, Scalar.ofNat_rat, Nat.cast_one]

/-- Closing a branch gives its records as the recursion has them. -/
theorem setAll_closed (position : Nat) (further : FurtherRails) (before inner : List (Branch Rat))
    (opened : Branch Rat) (below : RailSite) (closing : BranchClosing Rat)
    (bottom : closing.endY = input.rowY config ((below.row + further.rows : Nat) : Rat) - 1)
    (closed : Branch Rat)
    (same : { opened with endX := closing.endX }.railRecord config input =
      closed.railRecord config input) :
    BranchPass.setAll
        (before ++ closed :: (inner ++ BranchPass.joined
          (further.blocks config input below (opened.openRailRecord config input) position)))
        (BranchPass.headPlaces (before.length + (inner.length + 1))
          (further.blocks config input below (opened.openRailRecord config input) position))
        (BranchPass.finishChildren (.ofNat (position + further.drafts.length)) closing
          ((further.blocks config input below (opened.openRailRecord config input) position).map
            Prod.fst)) =
      before ++ closed :: (inner ++ further.records config input below closed position) := by
  have replaced := BranchPass.setAll_headPlaces (before ++ closed :: inner)
    (further.map_snd_blocks config input
      (opened.openRailRecord config input) (closed.railRecord config input) below position)
  rw [List.length_append, List.length_cons, List.append_assoc, List.append_assoc,
    List.cons_append, List.cons_append, ← further.records_eq_joined] at replaced
  rw [finishChildren_blocks opened below position closing further bottom, same]
  exact replaced

end LadderDiagram
