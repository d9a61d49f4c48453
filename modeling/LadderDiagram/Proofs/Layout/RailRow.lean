import LadderDiagram.Proofs.Layout.RailBlocks

/-!
# The row of a rail

Everything that the layout of a rung says of one of its rails: the record of the rail, the
blocks on it, which are a row from the gap behind the marker that opens it, and the gaps of
the rung that lie on it, which are those of the row.
-/

namespace LadderDiagram

/--
What stands on a rail of a laid-out rung from one gap to another, with its centre: an
instruction, or a branch with its two markers and everything between them.
-/
inductive LayoutResult.IsBlock (layout : LayoutResult Rat) (rail : Option BranchId) :
    (center : Rat) → (start finish : Nat) → Prop
  | instruction {place : Nat} {placed : LayoutElement Rat} {content : Instruction}
      (stands : layout.elements[place]? = some placed) (onRail : placed.railId = rail)
      (isInstruction : placed.element.draft = .instruction content) :
      layout.IsBlock rail (placed.x + placed.width / 2) place (place + 1)
  | branch {place close : Nat} {opening closing : LayoutElement Rat} {id : BranchId}
      (opens : layout.elements[place]? = some opening) (onRail : opening.railId = rail)
      (isStart : opening.element.draft = .branchStart id)
      (closes : layout.elements[close]? = some closing)
      (isEnd : closing.element.draft = .branchEnd id) :
      layout.IsBlock rail ((opening.x + closing.right) / 2) place (close + 1)

/-- A rail of a rung that a layout knows, with its level and its first gap. -/
def LayoutResult.IsRecorded {α : Type} (layout : LayoutResult α) (rail : Option BranchId)
    (level start : Nat) : Prop :=
  rail = none ∧ level = 0 ∧ start = 0 ∨ ∃ record ∈ layout.branches, rail = some record.id ∧
    record.branchLevel.next = .ofNat level ∧ record.startPosition.next = .ofNat start

/-- A rail of a rung, with its level, its first gap and its blocks. -/
structure LayoutResult.HasRow (layout : LayoutResult Rat) (elements : List Element)
    (rail : Option BranchId) (level start : Nat) (blocks : List Block) : Prop where
  row : Row start blocks
  recorded : layout.IsRecorded rail level start
  searched : ∀ lookup : BranchId → Option (Branch Rat),
    (∀ record ∈ layout.branches, lookup record.id = some record) →
      layout.elements.filterMap (LayoutElement.block? lookup rail) =
        blocks.map Block.toRailBlock
  isGap : ∀ gap ≤ elements.length, railAtGap elements gap = rail →
    Row.IsGap start blocks gap ∧ levelAtGap elements gap = .ofNat level
  onRail : ∀ gap, Row.IsGap start blocks gap →
    gap ≤ elements.length ∧ railAtGap elements gap = rail
  isBlock : ∀ center start finish, layout.IsBlock rail center start finish →
    ⟨center, start, finish⟩ ∈ blocks

variable {config : LayoutConfig Rat} {input : RungInput Rat}

/-! ### Elements of a tree -/

mutual

/-- An element is drawn on the rail on which it stands. -/
theorem RailTree.railId_of_mem_placed (site : RailSite) (position : Nat) (last : Option Rat)
    {placed : LayoutElement Rat} :
    ∀ tree : RailTree, placed ∈ tree.placed config input site position last →
      placed.railId = placed.element.railId
  | .nil, member => absurd member List.not_mem_nil
  | .instruction content rest, member => by
      rcases List.mem_cons.mp member with rfl | member
      · rfl
      · exact rest.railId_of_mem_placed site _ _ member
  | .branch id first further rest, member => by
      rcases mem_placed_branch.mp member with rfl | inFirst | inFurther | rfl | inRest
      · rfl
      · exact first.railId_of_mem_placed _ _ _ inFirst
      · exact further.railId_of_mem_placed _ _ inFurther
      · rfl
      · exact rest.railId_of_mem_placed site _ _ inRest

theorem FurtherRails.railId_of_mem_placed (site : RailSite) (position : Nat)
    {placed : LayoutElement Rat} :
    ∀ rails : FurtherRails, placed ∈ rails.placed config input site position →
      placed.railId = placed.element.railId
  | .nil, member => absurd member List.not_mem_nil
  | .rail id own others, member => by
      rcases mem_placed_rail.mp member with rfl | inOwn | inOthers
      · rfl
      · exact own.railId_of_mem_placed _ _ _ inOwn
      · exact others.railId_of_mem_placed _ _ inOthers

end

mutual

theorem RailTree.drafts_elements (place : RailPlace) (position : Nat) :
    ∀ tree : RailTree, drafts (tree.elements place position) = tree.drafts
  | .nil => rfl
  | .instruction content rest => congrArg _ (rest.drafts_elements place _)
  | .branch id first further rest => by
      rw [RailTree.elements, RailTree.drafts]
      simp only [drafts, List.map_cons, List.map_append]
      exact congrArg _ (congr (congrArg _ (first.drafts_elements _ _)) (congr (congrArg _
        (further.drafts_elements _ _)) (congrArg _ (rest.drafts_elements _ _))))

theorem FurtherRails.drafts_elements (place : RailPlace) (position : Nat) :
    ∀ rails : FurtherRails, drafts (rails.elements place position) = rails.drafts
  | .nil => rfl
  | .rail id own others => by
      rw [FurtherRails.elements, FurtherRails.drafts]
      simp only [drafts, List.map_cons, List.map_append]
      exact congrArg _ (congr (congrArg _ (own.drafts_elements _ _))
        (others.drafts_elements _ _))

end

/-! ### A rail of a rung -/

/--
The elements of a rung that touch a rail are its items, behind the marker that opens it
unless it is the main rail.
-/
structure IsRailOf (config : LayoutConfig Rat) (input : RungInput Rat)
    (placed head : List (LayoutElement Rat)) (site : RailSite) (start : Nat) (own : RailTree) :
    Prop where
  elements : placed.filter (·.touches site.railId) =
    head ++ own.items config input site start none
  head_behind : ∀ marker ∈ head, marker.element.railBehind = site.railId ∧
    marker.element.levelBehind = .ofNat site.level ∧ marker.position.next = .ofNat start
  head_apart : ∀ marker ∈ head, (∃ id, marker.element.openedRail? = some id) ∧
    ∀ id, marker.element.draft = .branchStart id → marker.railId ≠ site.railId
  begins : head ≠ [] ∨ site.railId = none ∧ site.level = 0 ∧ start = 0
  distinct : (openedIds own.drafts).Nodup
  unopened : ¬ Opens own.drafts site.railId

/-- What stands where its position says. -/
def InPlace (placed : List (LayoutElement Rat)) : Prop :=
  ∀ (place : Nat) (element : LayoutElement Rat), placed[place]? = some element →
    element.position = .ofNat place

/-- No two elements are the end markers of one branch. -/
def EndsOnce (placed : List (LayoutElement Rat)) : Prop :=
  ∀ (id : BranchId) (first second : LayoutElement Rat), first ∈ placed → second ∈ placed →
    first.element.draft = .branchEnd id → second.element.draft = .branchEnd id → first = second

namespace IsRailOf

variable {placed head : List (LayoutElement Rat)} {site : RailSite} {start : Nat}
  {own : RailTree} (isRail : IsRailOf config input placed head site start own)

include isRail

theorem mem_or_mem {element : LayoutElement Rat} (member : element ∈ placed)
    (touches : element.touches site.railId = true) :
    element ∈ head ∨ element ∈ own.items config input site start none := by
  rw [← List.mem_append, ← isRail.elements]
  exact List.mem_filter.mpr ⟨member, touches⟩

theorem mem_placed {element : LayoutElement Rat}
    (member : element ∈ head ∨ element ∈ own.items config input site start none) :
    element ∈ placed := by
  rw [← List.mem_append, ← isRail.elements] at member
  exact (List.mem_filter.mp member).1

/-- An element on the rail that does not open a rail is an item. -/
theorem mem_items {element : LayoutElement Rat} (member : element ∈ placed)
    (onRail : element.element.railId = site.railId) (drawn : element.railId = site.railId)
    (stays : ∀ id, element.element.draft ≠ .branchNext id) :
    element ∈ own.items config input site start none := by
  have touches : element.touches site.railId = true := by
    rw [LayoutElement.touches, Bool.or_eq_true, beq_iff_eq]
    exact Or.inl onRail
  refine (isRail.mem_or_mem member touches).resolve_left fun isHead => ?_
  obtain ⟨⟨id, opens⟩, apart⟩ := isRail.head_apart element isHead
  cases draft : element.element.draft with
  | instruction content => simp [Element.openedRail?, draft, Draft.openedRail?] at opens
  | branchStart id => exact apart id draft drawn
  | branchNext id => exact stays id draft
  | branchEnd id => simp [Element.openedRail?, draft, Draft.openedRail?] at opens

/-- The search finds the blocks of the rail. -/
theorem filterMap_eq {lookup : BranchId → Option (Branch Rat)}
    (drawn : ∀ element ∈ placed, element.railId = element.element.railId)
    (finds : ∀ record ∈ own.records config input site start none,
      lookup record.id = some record) :
    placed.filterMap (LayoutElement.block? lookup site.railId) =
      (own.blocks config site.originX start none).map Block.toRailBlock := by
  have skips : ∀ element ∈ placed, element.touches site.railId = false →
      element.block? lookup site.railId = none := by
    intro element member untouched
    refine if_neg fun onRail => ?_
    rw [LayoutElement.touches, ← drawn element member, onRail] at untouched
    simp at untouched
  have headSkips : head.filterMap (LayoutElement.block? lookup site.railId) = [] := by
    rw [List.filterMap_eq_nil_iff]
    intro marker isHead
    obtain ⟨⟨id, opens⟩, apart⟩ := isRail.head_apart marker isHead
    unfold LayoutElement.block?
    split
    next onRail =>
      cases draft : marker.element.draft with
      | instruction content => simp [Element.openedRail?, draft, Draft.openedRail?] at opens
      | branchStart id => exact absurd onRail (apart id draft)
      | branchNext id => rfl
      | branchEnd id => rfl
    next => rfl
  have filtered : placed.filterMap (LayoutElement.block? lookup site.railId) =
      (placed.filter (·.touches site.railId)).filterMap
        (LayoutElement.block? lookup site.railId) := by
    rw [List.filterMap_filter]
    refine List.filterMap_congr fun element member => ?_
    split
    next => rfl
    next untouched => exact skips element member (by simpa using untouched)
  rw [filtered, isRail.elements, List.filterMap_append, headSkips, List.nil_append,
    own.filterMap_items finds]

/-- A gap on the rail is behind the marker that opens it or behind one of its blocks. -/
theorem isGap_of_railBehind (inPlace : InPlace placed) {place : Nat}
    {element : LayoutElement Rat} (stands : placed[place]? = some element)
    (behind : element.element.railBehind = site.railId) :
    Row.IsGap start (own.blocks config site.originX start none) (place + 1) ∧
      element.element.levelBehind = .ofNat site.level := by
  have position := inPlace place element stands
  have touches : element.touches site.railId = true := by
    rw [LayoutElement.touches, Bool.or_eq_true, beq_iff_eq, beq_iff_eq]
    exact Or.inr behind
  rcases isRail.mem_or_mem (List.mem_of_getElem? stands) touches with isHead | isItem
  · obtain ⟨_, level, next⟩ := isRail.head_behind element isHead
    rw [position, Address.next_ofNat, Address.ofNat_inj] at next
    exact ⟨Or.inl next, level⟩
  · obtain ⟨_, ⟨id, opens, isStart⟩ | ⟨_, level, block, isBlock, next⟩⟩ := own.item_cases isItem
    · have same : site.railId = some id := by
        rw [← behind, Element.railBehind, isStart]
      exact absurd (same ▸ opens) isRail.unopened
    · rw [position, Address.next_ofNat, Address.ofNat_inj] at next
      exact ⟨Or.inr ⟨block, isBlock, next.symm⟩, level⟩

/-- The gaps of the row lie on the rail. -/
theorem onRail_of_isGap (inPlace : InPlace placed) {gap : Nat}
    (isGap : Row.IsGap start (own.blocks config site.originX start none) gap) :
    gap ≤ placed.length ∧ railAtGap (placed.map LayoutElement.element) gap = site.railId := by
  have behind {element : LayoutElement Rat}
      (member : element ∈ head ∨ element ∈ own.items config input site start none)
      (rail : element.element.railBehind = site.railId)
      (next : element.position.next = .ofNat gap) :
      gap ≤ placed.length ∧
        railAtGap (placed.map LayoutElement.element) gap = site.railId := by
    obtain ⟨place, stands⟩ := List.mem_iff_getElem?.mp (isRail.mem_placed member)
    rw [inPlace place element stands, Address.next_ofNat, Address.ofNat_inj] at next
    subst next
    refine ⟨(List.getElem?_eq_some_iff.mp stands).1, ?_⟩
    rw [← rail]
    apply railAtGap_succ
    rw [List.getElem?_map, stands]
    rfl
  rcases isGap with rfl | ⟨block, isBlock, rfl⟩
  · rcases isRail.begins with nonempty | ⟨isMain, _, rfl⟩
    · obtain ⟨marker, isHead⟩ := List.exists_mem_of_ne_nil head nonempty
      obtain ⟨rail, _, next⟩ := isRail.head_behind marker isHead
      exact behind (Or.inl isHead) rail next
    · exact ⟨Nat.zero_le _, isMain.symm⟩
  · obtain ⟨element, isItem, rail, next⟩ := own.exists_item_of_block isBlock
    exact behind (Or.inr isItem) rail next

/-- The blocks on the rail are those of the row. -/
theorem mem_blocks (inPlace : InPlace placed)
    (drawn : ∀ element ∈ placed, element.railId = element.element.railId)
    (ends : EndsOnce placed) {layout : LayoutResult Rat} (same : layout.elements = placed)
    {center : Rat} {first finish : Nat} (isBlock : layout.IsBlock site.railId center first finish) :
    ⟨center, first, finish⟩ ∈ own.blocks config site.originX start none := by
  cases isBlock with
  | @instruction _ placed content stands onRail isInstruction =>
      rw [same] at stands
      have member := List.mem_of_getElem? stands
      have isItem := isRail.mem_items member ((drawn placed member).symm.trans onRail) onRail
        (by simp [isInstruction])
      obtain ⟨block, isBlock, center, position, finish⟩ :=
        own.exists_block_of_instruction isItem isInstruction
      rw [inPlace _ _ stands, Address.ofNat_inj] at position
      obtain ⟨center', start', finish'⟩ := block
      dsimp only at center position finish
      subst center position finish
      exact isBlock
  | @branch _ close opening closing id opens onRail isStart closes isEnd =>
      rw [same] at opens closes
      have opensMember := List.mem_of_getElem? opens
      have isOpening := isRail.mem_items opensMember
        ((drawn opening opensMember).symm.trans onRail) onRail (by simp [isStart])
      obtain ⟨other, isItem, isOther⟩ := own.exists_end_of_start isOpening isStart
      obtain rfl := ends id closing other (List.mem_of_getElem? closes)
        (isRail.mem_placed (Or.inr isItem)) isEnd isOther
      obtain ⟨block, isBlock, center, position, finish⟩ :=
        own.exists_block_of_branch isRail.distinct isOpening isStart isItem isEnd
      rw [inPlace _ _ opens, Address.ofNat_inj] at position
      rw [inPlace _ _ closes, Address.next_ofNat, Address.ofNat_inj] at finish
      obtain ⟨center', start', finish'⟩ := block
      dsimp only at center position finish
      subst center position finish
      exact isBlock

end IsRailOf

/-- The main rail of a rung. -/
theorem RailTree.isRailOf_main (tree : RailTree) (distinct : (openedIds tree.drafts).Nodup) :
    IsRailOf config input (tree.placed config input (.main config) 0 none) [] (.main config) 0
      tree := by
  have unopened : ¬ Opens tree.drafts (RailSite.main config).railId := not_opens_none
  have elements : (tree.placed config input (.main config) 0 none).filter
      (·.touches (RailSite.main config).railId) = tree.items config input (.main config) 0 none :=
    tree.filter_placed_eq_items (.main config) 0 none unopened
  exact ⟨elements, fun _ member => absurd member List.not_mem_nil,
    fun _ member => absurd member List.not_mem_nil, Or.inr ⟨rfl, rfl, rfl⟩, distinct, unopened⟩

/-- A rail that is held by a rung. -/
theorem HoldsRail.isRailOf {placed : List (LayoutElement Rat)} {records : List (Branch Rat)}
    {id : BranchId} {marker : LayoutElement Rat} {record : Branch Rat} {site : RailSite}
    {position : Nat} {own : RailTree}
    (holds : HoldsRail config input placed records id marker record site position own) :
    IsRailOf config input placed [marker] site (position + 1) own := by
  have opens := holds.opens
  have behind : marker.element.railBehind = some id := by
    have touches : marker ∈ placed.filter (·.touches (some id)) := by
      rw [holds.elements]
      exact List.mem_cons_self
    have touches := (List.mem_filter.mp touches).2
    rw [LayoutElement.touches, Bool.or_eq_true, beq_iff_eq, beq_iff_eq] at touches
    unfold Element.railBehind at touches ⊢
    cases draft : marker.element.draft with
    | instruction content => simp [Element.openedRail?, draft, Draft.openedRail?] at opens
    | branchStart own =>
        rw [Element.openedRail?, draft] at opens
        exact opens
    | branchNext own =>
        rw [draft] at touches
        exact or_self_iff.mp touches
    | branchEnd own => simp [Element.openedRail?, draft, Draft.openedRail?] at opens
  refine ⟨?_, fun other member => ?_, fun other member => ?_, Or.inl (List.cons_ne_nil _ _),
    holds.distinct, holds.unopened⟩
  · rw [holds.railId]
    exact holds.elements
  · obtain rfl := List.mem_singleton.mp member
    rw [holds.railId, holds.marker_position]
    exact ⟨behind, holds.marker_level, rfl⟩
  · obtain rfl := List.mem_singleton.mp member
    refine ⟨⟨id, opens⟩, fun own isStart => ?_⟩
    rw [holds.railId]
    rw [Element.openedRail?, isStart] at opens
    obtain rfl : own = id := Option.some.inj opens
    exact holds.marker_apart isStart

section WellNested

variable (config : LayoutConfig Rat) (input : RungInput Rat) (tree : RailTree)
  (nested : WellNested tree.drafts)

theorem RailTree.map_element_main :
    (tree.placed config input (.main config) 0 none).map LayoutElement.element =
      tree.elements .main 0 :=
  tree.map_element_placed config input (.main config) 0 none

include nested

theorem RailTree.inPlace_of_wellNested :
    InPlace (tree.placed config input (.main config) 0 none) := by
  obtain ⟨elements, annotates⟩ := exists_annotate_iff.mpr nested
  obtain rfl := elements_of_annotate annotates
  intro place element stands
  have annotated : (tree.elements .main 0)[place]? = some element.element := by
    rw [← tree.map_element_main config input, List.getElem?_map, stands]
    rfl
  exact position_of_annotate annotates annotated

theorem RailTree.endsOnce_of_wellNested :
    EndsOnce (tree.placed config input (.main config) 0 none) := by
  intro id first second isFirst isSecond endsFirst endsSecond
  obtain ⟨place, stands⟩ := List.mem_iff_getElem?.mp isFirst
  obtain ⟨other, standsToo⟩ := List.mem_iff_getElem?.mp isSecond
  obtain ⟨before, behind, split, rfl⟩ := exists_split_at_place stands
  have source : tree.drafts = before.map (·.element.draft) ++
      .branchEnd id :: behind.map (·.element.draft) := by
    rw [← tree.drafts_elements .main 0, ← tree.map_element_main config input, split, ← endsFirst,
      LadderDiagram.drafts, List.map_map, List.map_append]
    rfl
  have once := nested.count_branchEnd_le_one id
  have found : tree.drafts[other]? = some (.branchEnd id) := by
    rw [← tree.drafts_elements .main 0, ← tree.map_element_main config input, ← endsSecond,
      LadderDiagram.drafts, List.map_map, List.getElem?_map, standsToo]
    rfl
  rw [source] at once found
  have same := (getElem?_eq_some_iff_of_count_le_one once).mp found
  rw [List.length_map] at same
  subst same
  exact Option.some.inj (stands.symm.trans standsToo)

end WellNested

section Layout

variable (rules : config.KeepsRules) (wide : ∀ draft, 1 ≤ (config.draftSize draft).width)
  {tree : RailTree}

include rules wide

/-- The row of a rail of a rung that is laid out as its tree says. -/
theorem IsRailOf.hasRow {head : List (LayoutElement Rat)} {site : RailSite} {start : Nat}
    {own : RailTree}
    (isRail : IsRailOf config input (tree.placed config input (.main config) 0 none) head site
      start own)
    (inPlace : InPlace (tree.placed config input (.main config) 0 none))
    (ends : EndsOnce (tree.placed config input (.main config) 0 none))
    (subset : own.records config input site start none ⊆
      tree.records config input (.main config) 0 none)
    (recorded : (tree.layout config input).IsRecorded site.railId site.level start) :
    (tree.layout config input).HasRow (tree.elements .main 0) site.railId site.level start
      (own.blocks config site.originX start none) := by
  have drawn : ∀ element ∈ tree.placed config input (.main config) 0 none,
      element.railId = element.element.railId := fun _ => tree.railId_of_mem_placed _ _ _
  have elements := tree.map_element_main config input
  have length_eq := congrArg List.length elements
  rw [List.length_map] at length_eq
  refine ⟨own.row_blocks rules wide _ _ _, recorded,
    fun lookup finds => isRail.filterMap_eq drawn fun record member =>
      finds record (subset member), fun gap within onRail => ?_, fun gap isGap => ?_,
    fun center first finish isBlock => isRail.mem_blocks inPlace drawn ends rfl isBlock⟩
  · cases gap with
    | zero =>
        -- The gap before everything is on the main rail, which no marker opens.
        have isMain : site.railId = none := onRail.symm
        obtain ⟨_, level, rfl⟩ := recorded.resolve_right (by simp [isMain])
        exact ⟨Or.inl rfl, congrArg Address.ofNat level.symm⟩
    | succ place =>
        have bounded : place < (tree.placed config input (.main config) 0 none).length :=
          length_eq ▸ within
        have stands := List.getElem?_eq_getElem bounded
        have annotated : (tree.elements .main 0)[place]? = some
            (tree.placed config input (.main config) 0 none)[place].element := by
          rw [← elements, List.getElem?_map, stands]
          rfl
        rw [railAtGap_succ annotated] at onRail
        rw [levelAtGap_succ annotated]
        exact isRail.isGap_of_railBehind inPlace stands onRail
  · rw [← elements, List.length_map]
    exact isRail.onRail_of_isGap inPlace isGap

/-- Every rail of a rung has a row. -/
theorem RailTree.exists_hasRow (nested : WellNested tree.drafts) {rail : Option BranchId}
    (isRail : rail = none ∨ Opens tree.drafts rail) :
    ∃ level start blocks, (tree.layout config input).HasRow (tree.elements .main 0) rail level
      start blocks := by
  have inPlace := tree.inPlace_of_wellNested config input nested
  have ends := tree.endsOnce_of_wellNested config input nested
  rcases isRail with rfl | ⟨id, opened, rfl⟩
  · exact ⟨_, _, _, (tree.isRailOf_main nested.distinct).hasRow rules wide inPlace ends
      (fun _ member => member) (Or.inl ⟨rfl, rfl, rfl⟩)⟩
  · have has : HasRail config input (tree.placed config input (.main config) 0 none)
        (tree.records config input (.main config) 0 none) id :=
      tree.hasRail (.main config) 0 none nested.distinct not_opens_none opened
    obtain ⟨marker, record, site, position, own, holds⟩ := has
    have row := holds.isRailOf.hasRow rules wide inPlace ends holds.records_subset (Or.inr
      ⟨record, holds.member, by rw [holds.railId, holds.record_id], holds.record_level,
        by rw [holds.record_position]; rfl⟩)
    rw [holds.railId] at row
    exact ⟨_, _, _, row⟩

end Layout

end LadderDiagram
