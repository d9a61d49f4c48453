import LadderDiagram.Proofs.Layout.RailItems
import LadderDiagram.Proofs.Layout.Row

/-!
# The blocks of a rail

The items of a rail make blocks: an instruction is one, and a branch is one with both of its
markers and all that is between them.  Since items follow one another at a distance, the
blocks are a row.
-/

namespace LadderDiagram

/-! ### Blocks as they are searched -/

section Search

variable {α : Type} [Scalar α]

/-- The block that an element begins on a rail. -/
def LayoutElement.block? (lookup : BranchId → Option (Branch α)) (rail : Option BranchId)
    (placed : LayoutElement α) : Option (RailBlock α) :=
  if placed.railId = rail then
    match placed.element.draft with
    | .instruction _ =>
        some ⟨placed.x + Scalar.half placed.width, placed.position, placed.position.next⟩
    | .branchStart id =>
        (lookup id).map fun nested =>
          ⟨Scalar.half (nested.startX + nested.endX), nested.startPosition,
            nested.endPosition.next⟩
    | _ => none
  else none

theorem Drawing.railBlocks_eq (drawing : Drawing α) (layout : LayoutResult α)
    (rail : Option BranchId) :
    drawing.railBlocks layout rail =
      layout.elements.filterMap (LayoutElement.block? drawing.arena.get? rail) := rfl

end Search

/-- A block as the search has it. -/
def Block.toRailBlock (block : Block) : RailBlock Rat :=
  ⟨block.center, .ofNat block.start, .ofNat block.finish⟩

/-! ### Blocks of a tree -/

/-- The blocks of a rail from some position on, behind an item with the right edge `last`. -/
def RailTree.blocks (config : LayoutConfig Rat) (originX : Rat) (position : Nat)
    (last : Option Rat) : RailTree → List Block
  | .nil => []
  | .instruction content rest =>
      let x := config.itemX originX last
      let width := (config.sizeOf content.category).width
      ⟨x + width / 2, position, position + 1⟩ ::
        rest.blocks config originX (position + 1) (some (x + width))
  | .branch _ first further rest =>
      let startX := config.itemX originX last
      let right := branchRight config startX first further
      let close := position + 1 + first.drafts.length + further.drafts.length
      ⟨(startX + right) / 2, position, close + 1⟩ ::
        rest.blocks config originX (close + 1) (some right)

variable {config : LayoutConfig Rat} {input : RungInput Rat}

section Row

variable (rules : config.KeepsRules)
  (wide : ∀ draft, 1 ≤ (config.draftSize draft).width)

include rules wide

theorem add_one_le_branchRight (startX : Rat) (first : RailTree) (further : FurtherRails) :
    startX + 1 ≤ branchRight config startX first further := by
  have reach := rules.startX_le_branchReach startX first further
  have behind := rules.le_behind (branchReach config startX first further)
  have marker : 1 ≤ config.sizes.branchMarker.width := wide (.branchStart (.ofNat 0))
  unfold branchRight
  linarith

/-- The centre of a block is at least half a unit behind the place at which a rail goes on. -/
theorem itemX_le_center (originX : Rat) (position : Nat) (last : Option Rat) (tree : RailTree)
    {block : Block} (member : block ∈ tree.blocks config originX position last) :
    config.itemX originX last + 1 / 2 ≤ block.center := by
  cases tree with
  | nil => exact absurd member List.not_mem_nil
  | instruction content rest =>
      have width : 1 ≤ (config.sizeOf content.category).width := wide (.instruction content)
      rcases List.mem_cons.mp member with rfl | member
      · change _ ≤ _ + _ / 2
        linarith
      · have later := itemX_le_center originX _ _ rest member
        have behind := rules.le_behind
          (config.itemX originX last + (config.sizeOf content.category).width)
        change config.behind _ + 1 / 2 ≤ _ at later
        linarith
  | branch id first further rest =>
      have right := add_one_le_branchRight rules wide (config.itemX originX last) first further
      rcases List.mem_cons.mp member with rfl | member
      · change _ ≤ (_ + _) / 2
        linarith
      · have later := itemX_le_center originX _ _ rest member
        have behind := rules.le_behind
          (branchRight config (config.itemX originX last) first further)
        change config.behind _ + 1 / 2 ≤ _ at later
        linarith

/-- The blocks of a rail are a row. -/
theorem RailTree.row_blocks (originX : Rat) (position : Nat) (last : Option Rat)
    (tree : RailTree) : Row position (tree.blocks config originX position last) := by
  cases tree with
  | nil => exact .nil position
  | instruction content rest =>
      have width : 1 ≤ (config.sizeOf content.category).width := wide (.instruction content)
      refine @Row.cons ⟨_, position, position + 1⟩ _ (Nat.lt_succ_self position)
        (fun next member => ?_) (rest.row_blocks originX (position + 1) _)
      have later := itemX_le_center rules wide originX _ _ rest member
      have behind := rules.le_behind
        (config.itemX originX last + (config.sizeOf content.category).width)
      change config.behind _ + 1 / 2 ≤ _ at later
      change _ + _ / 2 + 1 ≤ _
      linarith
  | branch id first further rest =>
      have right := add_one_le_branchRight rules wide (config.itemX originX last) first further
      let close := position + 1 + first.drafts.length + further.drafts.length
      have nonempty : position < close + 1 := by omega
      refine @Row.cons ⟨_, position, close + 1⟩ _ nonempty (fun next member => ?_)
        (rest.row_blocks originX (close + 1) _)
      have later := itemX_le_center rules wide originX _ _ rest member
      have behind := rules.le_behind
        (branchRight config (config.itemX originX last) first further)
      change config.behind _ + 1 / 2 ≤ _ at later
      change (_ + _) / 2 + 1 ≤ _
      linarith

end Row

/-! ### Items and blocks -/

section Items

variable {site : RailSite}

/-- What an item of a rail is: the start of a branch, or the last element of a block. -/
theorem RailTree.item_cases {position : Nat} {last : Option Rat} (tree : RailTree)
    {placed : LayoutElement Rat}
    (member : placed ∈ tree.items config input site position last) :
    placed.element.branchLevel = .ofNat site.level ∧
      ((∃ id, Opens tree.drafts (some id) ∧ placed.element.draft = .branchStart id) ∨
        placed.element.railBehind = site.railId ∧
          placed.element.levelBehind = .ofNat site.level ∧
          ∃ block ∈ tree.blocks config site.originX position last,
            placed.position.next = .ofNat block.finish) := by
  cases tree with
  | nil => exact absurd member List.not_mem_nil
  | instruction content rest =>
      rcases List.mem_cons.mp member with rfl | member
      · exact ⟨rfl, Or.inr ⟨rfl, rfl, _, List.mem_cons_self, rfl⟩⟩
      · obtain ⟨level, starts | ⟨behind, levelBehind, block, isBlock, finish⟩⟩ :=
          rest.item_cases member
        · exact ⟨level, Or.inl starts⟩
        · exact ⟨level, Or.inr ⟨behind, levelBehind, block, List.mem_cons_of_mem _ isBlock,
            finish⟩⟩
  | branch id first further rest =>
      rcases List.mem_cons.mp member with rfl | member
      · refine ⟨rfl, Or.inl ⟨id, opens_some_iff.mpr ?_, rfl⟩⟩
        rw [openedIds_branch]
        exact List.mem_cons_self
      rcases List.mem_cons.mp member with rfl | member
      · exact ⟨rfl, Or.inr ⟨rfl, rfl, _, List.mem_cons_self, rfl⟩⟩
      · obtain ⟨level, ⟨opened, opens, starts⟩ | ⟨behind, levelBehind, block, isBlock, finish⟩⟩ :=
          rest.item_cases member
        · refine ⟨level, Or.inl ⟨opened, opens_some_iff.mpr ?_, starts⟩⟩
          rw [openedIds_branch, List.mem_cons, List.mem_append, List.mem_append]
          exact Or.inr (Or.inr (Or.inr (opens_some_iff.mp opens)))
        · exact ⟨level, Or.inr ⟨behind, levelBehind, block, List.mem_cons_of_mem _ isBlock,
            finish⟩⟩

/-- Every block ends with an item, behind which its rail goes on. -/
theorem RailTree.exists_item_of_block {position : Nat} {last : Option Rat} (tree : RailTree)
    {block : Block}
    (member : block ∈ tree.blocks config site.originX position last) :
    ∃ placed ∈ tree.items config input site position last,
      placed.element.railBehind = site.railId ∧ placed.position.next = .ofNat block.finish := by
  cases tree with
  | nil => exact absurd member List.not_mem_nil
  | instruction content rest =>
      rcases List.mem_cons.mp member with rfl | member
      · exact ⟨_, List.mem_cons_self, rfl, rfl⟩
      · obtain ⟨placed, isItem, behind⟩ := rest.exists_item_of_block member
        exact ⟨placed, List.mem_cons_of_mem _ isItem, behind⟩
  | branch id first further rest =>
      rcases List.mem_cons.mp member with rfl | member
      · exact ⟨_, List.mem_cons_of_mem _ List.mem_cons_self, rfl, rfl⟩
      · obtain ⟨placed, isItem, behind⟩ := rest.exists_item_of_block member
        exact ⟨placed, List.mem_cons_of_mem _ (List.mem_cons_of_mem _ isItem), behind⟩

/-- An instruction among the items is a block. -/
theorem RailTree.exists_block_of_instruction {position : Nat} {last : Option Rat} (tree : RailTree)
    {placed : LayoutElement Rat}
    {content : Instruction} (member : placed ∈ tree.items config input site position last)
    (isInstruction : placed.element.draft = .instruction content) :
    ∃ block ∈ tree.blocks config site.originX position last,
      block.center = placed.x + placed.width / 2 ∧ placed.position = .ofNat block.start ∧
        block.finish = block.start + 1 := by
  cases tree with
  | nil => exact absurd member List.not_mem_nil
  | instruction own rest =>
      rcases List.mem_cons.mp member with rfl | member
      · exact ⟨_, List.mem_cons_self, rfl, rfl, rfl⟩
      · obtain ⟨block, isBlock, same⟩ := rest.exists_block_of_instruction member isInstruction
        exact ⟨block, List.mem_cons_of_mem _ isBlock, same⟩
  | branch id first further rest =>
      rcases List.mem_cons.mp member with rfl | member
      · cases isInstruction
      rcases List.mem_cons.mp member with rfl | member
      · cases isInstruction
      · obtain ⟨block, isBlock, same⟩ := rest.exists_block_of_instruction member isInstruction
        exact ⟨block, List.mem_cons_of_mem _ isBlock, same⟩

/-- A marker of a branch among the items has a handle that is opened there. -/
theorem RailTree.mem_openedIds_of_item {position : Nat} {last : Option Rat} (tree : RailTree)
    {placed : LayoutElement Rat}
    {id : BranchId} (member : placed ∈ tree.items config input site position last)
    (marks : placed.element.draft = .branchStart id ∨ placed.element.draft = .branchEnd id) :
    id ∈ openedIds tree.drafts := by
  cases tree with
  | nil => exact absurd member List.not_mem_nil
  | instruction own rest =>
      rcases List.mem_cons.mp member with rfl | member
      · rcases marks with same | same <;> cases same
      · exact rest.mem_openedIds_of_item member marks
  | branch opened first further rest =>
      rw [openedIds_branch, List.mem_cons, List.mem_append, List.mem_append]
      rcases List.mem_cons.mp member with rfl | member
      · rcases marks with same | same <;> cases same
        exact Or.inl rfl
      rcases List.mem_cons.mp member with rfl | member
      · rcases marks with same | same <;> cases same
        exact Or.inl rfl
      · exact Or.inr (Or.inr (Or.inr (rest.mem_openedIds_of_item member marks)))

/-- A branch that begins among the items ends among them. -/
theorem RailTree.exists_end_of_start {position : Nat} {last : Option Rat} (tree : RailTree)
    {placed : LayoutElement Rat} {id : BranchId}
    (member : placed ∈ tree.items config input site position last)
    (isStart : placed.element.draft = .branchStart id) :
    ∃ closing ∈ tree.items config input site position last,
      closing.element.draft = .branchEnd id := by
  cases tree with
  | nil => exact absurd member List.not_mem_nil
  | instruction own rest =>
      rcases List.mem_cons.mp member with rfl | member
      · cases isStart
      · obtain ⟨closing, isItem, isEnd⟩ := rest.exists_end_of_start member isStart
        exact ⟨closing, List.mem_cons_of_mem _ isItem, isEnd⟩
  | branch opened first further rest =>
      rcases List.mem_cons.mp member with rfl | member
      · cases isStart
        exact ⟨_, List.mem_cons_of_mem _ List.mem_cons_self, rfl⟩
      rcases List.mem_cons.mp member with rfl | member
      · cases isStart
      · obtain ⟨closing, isItem, isEnd⟩ := rest.exists_end_of_start member isStart
        exact ⟨closing, List.mem_cons_of_mem _ (List.mem_cons_of_mem _ isItem), isEnd⟩

/-- The two markers of a branch among the items are a block with what is between them. -/
theorem RailTree.exists_block_of_branch {position : Nat} {last : Option Rat} (tree : RailTree)
    {opening closing : LayoutElement Rat}
    {id : BranchId} (distinct : (openedIds tree.drafts).Nodup)
    (opens : opening ∈ tree.items config input site position last)
    (isStart : opening.element.draft = .branchStart id)
    (closes : closing ∈ tree.items config input site position last)
    (isEnd : closing.element.draft = .branchEnd id) :
    ∃ block ∈ tree.blocks config site.originX position last,
      block.center = (opening.x + closing.right) / 2 ∧ opening.position = .ofNat block.start ∧
        closing.position.next = .ofNat block.finish := by
  cases tree with
  | nil => exact absurd opens List.not_mem_nil
  | instruction own rest =>
      rcases List.mem_cons.mp opens with rfl | opens
      · cases isStart
      rcases List.mem_cons.mp closes with rfl | closes
      · cases isEnd
      obtain ⟨block, isBlock, same⟩ :=
        rest.exists_block_of_branch distinct opens isStart closes isEnd
      exact ⟨block, List.mem_cons_of_mem _ isBlock, same⟩
  | branch opened first further rest =>
      rw [openedIds_branch, List.nodup_cons, List.nodup_append, List.nodup_append] at distinct
      obtain ⟨once, _, ⟨_, rest_nodup, _⟩, _⟩ := distinct
      have notInRest : opened ∉ openedIds rest.drafts := fun member =>
        once (List.mem_append_right _ (List.mem_append_right _ member))
      rcases List.mem_cons.mp opens with rfl | opens
      · cases isStart
        rcases List.mem_cons.mp closes with rfl | closes
        · cases isEnd
        rcases List.mem_cons.mp closes with rfl | closes
        · exact ⟨_, List.mem_cons_self, rfl, rfl, rfl⟩
        · exact absurd (rest.mem_openedIds_of_item closes (Or.inr isEnd)) notInRest
      rcases List.mem_cons.mp opens with rfl | opens
      · cases isStart
      have inRest := rest.mem_openedIds_of_item opens (Or.inl isStart)
      rcases List.mem_cons.mp closes with rfl | closes
      · cases isEnd
      rcases List.mem_cons.mp closes with rfl | closes
      · cases isEnd
        exact absurd inRest notInRest
      obtain ⟨block, isBlock, same⟩ :=
        rest.exists_block_of_branch rest_nodup opens isStart closes isEnd
      exact ⟨block, List.mem_cons_of_mem _ isBlock, same⟩

/-- The blocks that the search finds among the items are those of the rail. -/
theorem RailTree.filterMap_items {position : Nat} {last : Option Rat} (tree : RailTree)
    {lookup : BranchId → Option (Branch Rat)}
    (finds : ∀ record ∈ tree.records config input site position last,
      lookup record.id = some record) :
    (tree.items config input site position last).filterMap
        (LayoutElement.block? lookup site.railId) =
      (tree.blocks config site.originX position last).map Block.toRailBlock := by
  cases tree with
  | nil => rfl
  | instruction content rest =>
      have own : (site.put config input position (.instruction content)
          (config.itemX site.originX last)).block? lookup site.railId = some _ := if_pos rfl
      rw [RailTree.items, List.filterMap_cons_some own, rest.filterMap_items finds]
      rfl
  | branch id first further rest =>
      have start : (site.put config input position (.branchStart id)
          (config.itemX site.originX last)).block? lookup site.railId =
            (lookup id).map _ := if_pos rfl
      have found : lookup id = some _ := finds _ (mem_records_branch.mpr (Or.inl rfl))
      rw [found] at start
      have close : (site.put config input
          (position + 1 + first.drafts.length + further.drafts.length) (.branchEnd id)
          (config.behind (branchReach config (config.itemX site.originX last) first
            further))).block? lookup site.railId = none := if_pos rfl
      rw [RailTree.items, List.filterMap_cons_some start, List.filterMap_cons_none close,
        rest.filterMap_items fun record member =>
          finds record (mem_records_branch.mpr (Or.inr (Or.inr (Or.inr member))))]
      rfl

end Items

end LadderDiagram
