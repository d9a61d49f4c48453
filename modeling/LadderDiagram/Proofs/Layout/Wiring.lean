import LadderDiagram.Proofs.Layout.Recursion
import LadderDiagram.Proofs.Layout.Runs
import LadderDiagram.Proofs.Layout.Stacks

/-!
# The wires of a rung

The wires of a laid-out rung lead along each of its rails without a gap, and on both sides of each
branch from the rail on which it stands down to its last rail.  A branch is told from a further rail
by the records that name it as theirs, and its upper end is found by its start marker.
-/

namespace LadderDiagram

variable {config : LayoutConfig Rat} {input : RungInput Rat}

/-! ### Branches -/

/-- Whether a record is that of a rail of a branch: of the first one or of a further one. -/
def Branch.IsRailOf (rail branch : Branch Rat) : Prop :=
  rail.id = branch.id ∨ rail.id ∈ branch.childIds

/--
The wires at both sides of a branch lead from the rail on which its markers stand down to its last
rail, and each of its rails begins at the one and ends at the other.
-/
structure LayoutResult.Connects (layout : LayoutResult Rat) (config : LayoutConfig Rat)
    (branch : Branch Rat) (opening closing : LayoutElement Rat) (outer : RailRun Rat)
    (bottom : Rat) : Prop where
  opens : opening ∈ layout.elements
  isStart : opening.element.draft = .branchStart branch.id
  closes : closing ∈ layout.elements
  isEnd : closing.element.draft = .branchEnd branch.id
  standsOn : layout.HasRun config opening.railId outer
  drops : layout.dropWires config branch =
    [⟨layout.rungNumber, opening.x, outer.wireY, opening.x, bottom⟩,
      ⟨layout.rungNumber, closing.x, outer.wireY, closing.x, bottom⟩]
  rails : ∀ rail ∈ layout.branches, rail.IsRailOf branch →
    (layout.branchRun config rail).startX = opening.x ∧
      (layout.branchRun config rail).endX = closing.x ∧
        outer.wireY < (layout.branchRun config rail).wireY ∧
          (layout.branchRun config rail).wireY ≤ bottom
  lowest : ∃ rail ∈ layout.branches, rail.id = branch.childIds.getLast?.getD branch.id ∧
    (layout.branchRun config rail).wireY = bottom

/-- Rails that stand one below the other are not below the last one. -/
theorem Branch.Stacks.le_getLast {branch lowest : Branch Rat} {top : Rat}
    {rails : List (Branch Rat)} (stacked : branch.Stacks top rails)
    (isLast : rails.getLast? = some lowest) : top ≤ lowest.branchY ∧
      ∀ rail ∈ rails, top ≤ rail.branchY ∧ rail.branchY ≤ lowest.branchY := by
  induction stacked with
  | nil => cases isLast
  | @cons top next rail rest _ _ branchY_eq _ _ lower others ih =>
      rw [List.getLast?_cons] at isLast
      cases behind : rest.getLast? with
      | none =>
          rw [behind] at isLast
          obtain rfl := Option.some.inj isLast
          obtain rfl := List.getLast?_eq_none_iff.mp behind
          refine ⟨branchY_eq.ge, fun own member => ?_⟩
          rw [List.mem_singleton.mp member]
          exact ⟨branchY_eq.ge, le_refl _⟩
      | some found =>
          rw [behind] at isLast
          obtain rfl : found = lowest := Option.some.inj isLast
          obtain ⟨further, each⟩ := ih behind
          have le := lower.le.trans further
          refine ⟨le, fun own member => ?_⟩
          rcases List.mem_cons.mp member with rfl | member
          · exact ⟨branchY_eq.ge, branchY_eq.le.trans le⟩
          · exact ⟨lower.le.trans (each own member).1, (each own member).2⟩

theorem Branch.Stacks.ends_eq {branch : Branch Rat} {top : Rat} {rails : List (Branch Rat)}
    (stacked : branch.Stacks top rails) :
    ∀ rail ∈ rails, rail.startX = branch.startX ∧ rail.endX = branch.endX := by
  induction stacked with
  | nil => exact fun _ member => absurd member List.not_mem_nil
  | cons startX_eq endX_eq _ _ _ _ _ ih => exact List.forall_mem_cons.mpr ⟨⟨startX_eq, endX_eq⟩, ih⟩

/-- The wires at the sides of a branch lead down from its start marker. -/
theorem LayoutResult.dropWires_of_find? {layout : LayoutResult Rat} {branch : Branch Rat}
    {opening : LayoutElement Rat}
    (found : layout.elements.find? (fun placed =>
      placed.kind == .branchStart && placed.branchId == some branch.id) = some opening) :
    layout.dropWires config branch =
      layout.wire branch.startX (opening.y + wireOffset config) branch.startX
          ((layout.lastRail branch).branchY + wireOffset config) ++
        layout.wire (branch.endX - config.sizes.branchMarker.width)
          (opening.y + wireOffset config) (branch.endX - config.sizes.branchMarker.width)
          ((layout.lastRail branch).branchY + wireOffset config) := by
  unfold dropWires
  rw [found]

section LastRail

variable {layout : LayoutResult Rat} {rails : List (Branch Rat)} {branch record : Branch Rat}
  {top : Rat} (distinct : (layout.branches.map Branch.id).Nodup)

include distinct

theorem LayoutResult.find?_id (member : record ∈ layout.branches) :
    layout.branches.find? (·.id == record.id) = some record := by
  have found : (layout.branches.find? (·.id == record.id)).isSome :=
    List.find?_isSome.mpr ⟨record, member, beq_self_eq_true _⟩
  obtain ⟨other, isOther⟩ := Option.isSome_iff_exists.mp found
  have same : other.id = record.id := by simpa using List.find?_some isOther
  rw [isOther, List.inj_on_of_nodup_map distinct (List.mem_of_find?_eq_some isOther) member same]

/-- The last rail of a branch is the lowest one, and all of its rails have the same ends. -/
theorem Branch.HasRails.lastRail_le (has : branch.HasRails layout.branches rails top)
    (member : branch ∈ layout.branches) :
    layout.lastRail branch ∈ layout.branches ∧
      (layout.lastRail branch).id = branch.childIds.getLast?.getD branch.id ∧
      ∀ rail ∈ layout.branches, rail.IsRailOf branch → rail.startX = branch.startX ∧
        rail.endX = branch.endX ∧ branch.branchY ≤ rail.branchY ∧
          rail.branchY ≤ (layout.lastRail branch).branchY := by
  have mem_of_child {rail : Branch Rat} (isRecord : rail ∈ layout.branches)
      (isChild : rail.id ∈ branch.childIds) : rail ∈ rails := by
    rw [has.ids_eq] at isChild
    obtain ⟨other, isOther, same⟩ := List.mem_map.mp isChild
    rwa [← List.inj_on_of_nodup_map distinct (has.members other isOther) isRecord same]
  have ids : branch.childIds.getLast? = rails.getLast?.map Branch.id := by
    rw [has.ids_eq, List.getLast?_map]
  unfold LayoutResult.lastRail
  rw [ids]
  cases isLast : rails.getLast? with
  | none =>
      obtain rfl := List.getLast?_eq_none_iff.mp isLast
      refine ⟨member, rfl, fun rail isRecord isRail => ?_⟩
      rcases isRail with same | isChild
      · rw [List.inj_on_of_nodup_map distinct isRecord member same]
        exact ⟨rfl, rfl, le_refl _, le_refl _⟩
      · exact absurd (mem_of_child isRecord isChild) List.not_mem_nil
  | some lowest =>
      have isRecord := has.members lowest (List.mem_of_getLast? isLast)
      have above : branch.branchY < top := has.branchY_eq ▸ has.above
      obtain ⟨reaches, each⟩ := has.stacked.le_getLast isLast
      have found : (layout.branches.find? (·.id == lowest.id)).getD branch = lowest := by
        rw [LayoutResult.find?_id distinct isRecord]
        rfl
      rw [Option.map_some]
      dsimp only
      rw [found]
      refine ⟨isRecord, rfl, fun rail railMember isRail => ?_⟩
      rcases isRail with same | isChild
      · rw [List.inj_on_of_nodup_map distinct railMember member same]
        exact ⟨rfl, rfl, le_refl _, above.le.trans reaches⟩
      · have isOwn := mem_of_child railMember isChild
        obtain ⟨startX_eq, endX_eq⟩ := has.stacked.ends_eq rail isOwn
        exact ⟨startX_eq, endX_eq, above.le.trans (each rail isOwn).1, (each rail isOwn).2⟩

end LastRail

section Branches

variable {tree : RailTree}

theorem RailTree.map_draft_placed :
    (tree.placed config input (.main config) 0 none).map (·.element.draft) = tree.drafts := by
  rw [← tree.drafts_elements .main 0, ← tree.map_element_main config input,
    LadderDiagram.drafts, List.map_map]
  rfl

/-- The start marker of a branch is the only one. -/
theorem find?_branchStart (distinct : (openedIds tree.drafts).Nodup) {id : BranchId}
    {opening : LayoutElement Rat}
    (member : opening ∈ tree.placed config input (.main config) 0 none)
    (isStart : opening.element.draft = .branchStart id) :
    (tree.placed config input (.main config) 0 none).find? (fun placed =>
      placed.kind == .branchStart && placed.branchId == some id) = some opening := by
  have isIt : (opening.kind == .branchStart && opening.branchId == some id) = true := by
    simp [LayoutElement.kind, LayoutElement.branchId, Element.kind, Element.branchId, isStart,
      Draft.kind, Draft.markerId?]
  have finds : ((tree.placed config input (.main config) 0 none).find? (fun placed =>
      placed.kind == .branchStart && placed.branchId == some id)).isSome :=
    List.find?_isSome.mpr ⟨opening, member, isIt⟩
  obtain ⟨other, found⟩ := Option.isSome_iff_exists.mp finds
  have opensToo : other.element.openedRail? = some id := by
    have isOther := List.find?_some found
    unfold LayoutElement.kind LayoutElement.branchId Element.kind Element.branchId at isOther
    unfold Element.openedRail?
    cases draft : other.element.draft <;>
      simp_all [Draft.kind, Draft.markerId?, Draft.openedRail?]
  have opened : (tree.placed config input (.main config) 0 none).filterMap
      (·.element.openedRail?) = openedIds tree.drafts := by
    rw [← tree.map_draft_placed, openedIds, List.filterMap_map]
    rfl
  rw [found, eq_of_nodup_filterMap (opened ▸ distinct) (List.mem_of_find?_eq_some found) member
    opensToo (congrArg Draft.openedRail? isStart)]

/-- What stands on a rail is in the run of this rail. -/
theorem exists_hasRun {placed : LayoutElement Rat}
    (member : placed ∈ (tree.layout config input).elements) (stays : placed.kind ≠ .branchNext) :
    ∃ run, (tree.layout config input).HasRun config placed.railId run ∧ placed ∈ run.members := by
  have drawn := tree.railId_of_mem_placed _ _ _ member
  cases onRail : placed.railId with
  | none =>
      refine ⟨_, .main, List.mem_filter.mpr ⟨member, ?_⟩⟩
      rw [onRail]
      rfl
  | some id =>
      have opened : id ∈ openedIds tree.drafts := by
        by_contra unopened
        have apart : (RailSite.main config).railId ≠ some id := (Option.some_ne_none id).symm
        have untouched : (tree.layout config input).elements.filter (·.touches (some id)) = [] :=
          tree.filter_placed_eq_nil (.main config) 0 none apart (opens_some_iff.not.mpr unopened)
        refine absurd (List.filter_eq_nil_iff.mp untouched placed member) (not_not.mpr ?_)
        rw [LayoutElement.touches, ← drawn, onRail, beq_self_eq_true]
        rfl
      have ids : (tree.layout config input).branches.map Branch.id = openedIds tree.drafts :=
        tree.map_id_records (.main config) 0 none
      rw [← ids, List.mem_map] at opened
      obtain ⟨record, isRecord, rfl⟩ := opened
      refine ⟨_, .branch isRecord, List.mem_filter.mpr ⟨member, ?_⟩⟩
      rw [onRail, beq_self_eq_true, Bool.true_and, bne_iff_ne]
      exact stays

/-- A branch of a rung is connected. -/
theorem exists_connects (rules : config.KeepsRules) (distinct : (openedIds tree.drafts).Nodup)
    {branch : Branch Rat} {opening closing : LayoutElement Rat}
    (member : branch ∈ tree.records config input (.main config) 0 none)
    (marked : branch.IsMarked config (tree.placed config input (.main config) 0 none) opening
      closing) :
    ∃ outer bottom,
      (tree.layout config input).Connects config branch opening closing outer bottom := by
  let layout := tree.layout config input
  obtain ⟨rails, top, has⟩ := tree.exists_hasRails rules (.main config) 0 none member
  have once : (layout.branches.map Branch.id).Nodup := by
    rw [show layout.branches.map Branch.id = _ from tree.map_id_records (.main config) 0 none]
    exact distinct
  obtain ⟨isRecord, lastId, ends⟩ := Branch.HasRails.lastRail_le once has member
  have stays : opening.kind ≠ .branchNext := by
    rw [LayoutElement.kind, Element.kind, marked.isStart]
    intro same
    cases same
  obtain ⟨outer, hasRun, onRun⟩ := exists_hasRun marked.opens stays
  have level : opening.y + LayoutResult.wireOffset config = outer.wireY :=
    (isTiled_and_isLevel rules distinct hasRun).2 opening onRun
  have above : outer.wireY < branch.branchY + LayoutResult.wireOffset config := by
    linarith [marked.above]
  have ownEnds := ends branch member (.inl rfl)
  refine ⟨outer, (layout.lastRail branch).branchY + LayoutResult.wireOffset config,
    marked.opens, marked.isStart, marked.closes, marked.isEnd, hasRun, ?drops, ?rails, ?lowest⟩
  case drops =>
    have long : outer.wireY < (layout.lastRail branch).branchY + LayoutResult.wireOffset config :=
      above.trans_le (add_le_add_left ownEnds.2.2.2 _)
    rw [LayoutResult.dropWires_of_find? (find?_branchStart distinct marked.opens marked.isStart),
      level, LayoutResult.wire_eq, LayoutResult.wire_eq, if_neg fun same => long.ne same.2,
      if_neg fun same => long.ne same.2, marked.opening_x, marked.closing_x]
    rfl
  case rails =>
    intro rail isRail isPart
    obtain ⟨startX_eq, endX_eq, top_le, le_bottom⟩ := ends rail isRail isPart
    refine ⟨startX_eq.trans marked.opening_x.symm, ?_, ?_, ?_⟩
    · exact (congrArg (· - config.sizes.branchMarker.width) endX_eq).trans marked.closing_x.symm
    · exact above.trans_le (add_le_add_left top_le _)
    · exact add_le_add_left le_bottom _
  case lowest => exact ⟨_, isRecord, lastId, rfl⟩

theorem LayoutResult.mem_wholeBranches {layout : LayoutResult Rat} {branch : Branch Rat} :
    branch ∈ layout.wholeBranches ↔
      branch ∈ layout.branches ∧ ∀ other ∈ layout.branches, branch.id ∉ other.childIds := by
  unfold wholeBranches
  simp

/-- Where one marker opens a branch, no other one opens a further rail with its handle. -/
theorem mem_wholeBranches_of_branchStart (distinct : (openedIds tree.drafts).Nodup)
    {branch : Branch Rat} (member : branch ∈ (tree.layout config input).branches)
    (starts : .branchStart branch.id ∈ tree.drafts) :
    branch ∈ (tree.layout config input).wholeBranches := by
  refine LayoutResult.mem_wholeBranches.mpr ⟨member, fun other isOther isChild => ?_⟩
  have further := tree.branchNext_mem_of_child _ _ _ isChild isOther
  exact Draft.noConfusion (eq_of_nodup_filterMap distinct starts further rfl rfl)

/-- A branch that is no further rail of another one has markers. -/
theorem exists_isMarked (rules : config.KeepsRules) {branch : Branch Rat}
    (whole : branch ∈ (tree.layout config input).wholeBranches) :
    ∃ opening closing, branch.IsMarked config (tree.layout config input).elements opening
      closing := by
  obtain ⟨member, apart⟩ := LayoutResult.mem_wholeBranches.mp whole
  obtain ⟨outer, isOuter, marked, rfl | isChild⟩ := tree.isPartOf_of_mem rules _ _ _ member
  · exact marked
  · exact absurd isChild (apart outer isOuter)

theorem branchStart_mem_drafts {opening : LayoutElement Rat} {id : BranchId}
    (member : opening ∈ (tree.layout config input).elements)
    (isStart : opening.element.draft = .branchStart id) : .branchStart id ∈ tree.drafts := by
  have drawn : (tree.layout config input).elements.map (·.element.draft) = tree.drafts :=
    tree.map_draft_placed
  rw [← drawn, ← isStart]
  exact List.mem_map_of_mem member

end Branches

/-! ### Segments -/

namespace WireSegment

/-- Whether a wire leads from left to right, over some length. -/
def isHorizontal (segment : WireSegment Rat) : Bool :=
  decide (segment.y1 = segment.y2 ∧ segment.x1 ≠ segment.x2)

/-- Whether a wire leads from top to bottom, over some length. -/
def isVertical (segment : WireSegment Rat) : Bool :=
  decide (segment.x1 = segment.x2 ∧ segment.y1 ≠ segment.y2)

variable {segment : WireSegment Rat}

theorem isHorizontal_iff :
    segment.isHorizontal = true ↔ segment.y1 = segment.y2 ∧ segment.x1 ≠ segment.x2 :=
  decide_eq_true_iff

theorem isVertical_iff :
    segment.isVertical = true ↔ segment.x1 = segment.x2 ∧ segment.y1 ≠ segment.y2 :=
  decide_eq_true_iff

theorem not_isHorizontal (upright : segment.isVertical = true) :
    ¬ segment.isHorizontal = true :=
  fun level => (isHorizontal_iff.mp level).2 (isVertical_iff.mp upright).1

theorem isVertical_of_mem_wire {layout : LayoutResult Rat} {x y1 y2 : Rat}
    (member : segment ∈ layout.wire x y1 x y2) : segment.isVertical = true := by
  rw [LayoutResult.wire_eq] at member
  split at member
  next => cases member
  next apart =>
    rw [List.mem_singleton.mp member]
    exact isVertical_iff.mpr ⟨rfl, fun same => apart ⟨rfl, same⟩⟩

end WireSegment

namespace LayoutResult

variable {layout : LayoutResult Rat} {run : RailRun Rat} {segment : WireSegment Rat}

/-- The wires along a rail lead to the right, between its ends and at its height. -/
theorem IsTiled.of_mem_railWires (tiled : layout.IsTiled run)
    (member : segment ∈ layout.railWires run) :
    (run.startX ≤ segment.x1 ∧ segment.x1 < segment.x2 ∧ segment.x2 ≤ run.endX) ∧
      segment.y1 = run.wireY ∧ segment.y2 = run.wireY := by
  obtain ⟨pieces, along, _⟩ := tiled
  rw [railWires, ← along.segments_eq, List.mem_filterMap] at member
  obtain ⟨piece, isPiece, isSegment⟩ := member
  cases piece with
  | wire own =>
      obtain rfl : own = segment := Option.some.inj isSegment
      obtain ⟨starts, ends⟩ := along.leads.between_of_mem isPiece
      exact ⟨⟨starts, along.leads.lt_of_mem isPiece, ends⟩, along.isOn _ isPiece⟩
  | box placed => cases isSegment
  | span opening closing => cases isSegment

theorem IsTiled.isHorizontal_of_mem (tiled : layout.IsTiled run)
    (member : segment ∈ layout.railWires run) : segment.isHorizontal = true := by
  obtain ⟨⟨_, forward, _⟩, first, second⟩ := tiled.of_mem_railWires member
  exact WireSegment.isHorizontal_iff.mpr ⟨first.trans second.symm, forward.ne⟩

theorem isVertical_of_mem_powerRails (member : segment ∈ layout.powerRails config) :
    segment.isVertical = true := by
  rcases List.mem_append.mp member with member | member
  · exact WireSegment.isVertical_of_mem_wire member
  · exact WireSegment.isVertical_of_mem_wire member

theorem isVertical_of_mem_dropWires {branch : Branch Rat}
    (member : segment ∈ layout.dropWires config branch) : segment.isVertical = true := by
  unfold dropWires at member
  split at member
  next => cases member
  next =>
    rcases List.mem_append.mp member with member | member
    · exact WireSegment.isVertical_of_mem_wire member
    · exact WireSegment.isVertical_of_mem_wire member

/-- The runs of a laid-out rung, with that of the main rail first. -/
def runs (layout : LayoutResult Rat) (config : LayoutConfig Rat) : List (RailRun Rat) :=
  layout.mainRun config :: layout.branches.map (layout.branchRun config)

theorem exists_hasRun_of_mem_runs (isRun : run ∈ layout.runs config) :
    ∃ rail, layout.HasRun config rail run := by
  rcases List.mem_cons.mp isRun with rfl | isRun
  · exact ⟨_, .main⟩
  · obtain ⟨rail, isRail, rfl⟩ := List.mem_map.mp isRun
    exact ⟨_, .branch isRail⟩

theorem wires_eq : layout.wires config = layout.powerRails config ++
    (layout.runs config).flatMap layout.railWires ++
      layout.wholeBranches.flatMap (layout.dropWires config) := rfl

theorem isVertical_of_mem_drops
    (member : segment ∈ layout.wholeBranches.flatMap (layout.dropWires config)) :
    segment.isVertical = true := by
  obtain ⟨branch, _, member⟩ := List.mem_flatMap.mp member
  exact isVertical_of_mem_dropWires member

section Tiled

variable (tiled : ∀ rail run, layout.HasRun config rail run → layout.IsTiled run)

include tiled

theorem isHorizontal_of_mem_runs
    (member : segment ∈ (layout.runs config).flatMap layout.railWires) :
    segment.isHorizontal = true := by
  obtain ⟨run, isRun, onRun⟩ := List.mem_flatMap.mp member
  obtain ⟨rail, hasRun⟩ := exists_hasRun_of_mem_runs isRun
  exact (tiled rail run hasRun).isHorizontal_of_mem onRun

theorem filter_isHorizontal_wires : (layout.wires config).filter WireSegment.isHorizontal =
    (layout.runs config).flatMap layout.railWires := by
  have power : (layout.powerRails config).filter WireSegment.isHorizontal = [] :=
    List.filter_eq_nil_iff.mpr fun _ member =>
      WireSegment.not_isHorizontal (isVertical_of_mem_powerRails member)
  have drops : (layout.wholeBranches.flatMap (layout.dropWires config)).filter
      WireSegment.isHorizontal = [] :=
    List.filter_eq_nil_iff.mpr fun _ member =>
      WireSegment.not_isHorizontal (isVertical_of_mem_drops member)
  rw [wires_eq, List.filter_append, List.filter_append, power, drops, List.append_nil,
    List.nil_append]
  exact List.filter_eq_self.mpr fun _ => isHorizontal_of_mem_runs tiled

theorem filter_isVertical_wires : (layout.wires config).filter WireSegment.isVertical =
    layout.powerRails config ++ layout.wholeBranches.flatMap (layout.dropWires config) := by
  have runs : ((layout.runs config).flatMap layout.railWires).filter WireSegment.isVertical = [] :=
    List.filter_eq_nil_iff.mpr fun _ member isVertical =>
      WireSegment.not_isHorizontal isVertical (isHorizontal_of_mem_runs tiled member)
  rw [wires_eq, List.filter_append, List.filter_append, runs, List.append_nil,
    List.filter_eq_self.mpr fun _ => isVertical_of_mem_powerRails,
    List.filter_eq_self.mpr fun _ => isVertical_of_mem_drops]

theorem isHorizontal_or_isVertical (member : segment ∈ layout.wires config) :
    segment.isHorizontal = true ∨ segment.isVertical = true := by
  rw [wires_eq, List.mem_append, List.mem_append] at member
  rcases member with (onPower | onRun) | isDrop
  · exact .inr (isVertical_of_mem_powerRails onPower)
  · exact .inl (isHorizontal_of_mem_runs tiled onRun)
  · exact .inr (isVertical_of_mem_drops isDrop)

end Tiled

/--
The wires of a laid-out rung: they complete the way along each rail, and on both sides of each
branch they lead from the rail on which it stands down to its last rail.
-/
structure IsWired (layout : LayoutResult Rat) (config : LayoutConfig Rat) (source : List Draft) :
    Prop where
  tiled : ∀ rail run, layout.HasRun config rail run → layout.IsTiled run
  /-- Each rail that a marker opens has a record. -/
  recorded : layout.branches.map Branch.id = openedIds source
  /-- The branches are those that start markers open. -/
  whole : ∀ id, .branchStart id ∈ source ↔ ∃ branch ∈ layout.wholeBranches, branch.id = id
  belongs : ∀ rail ∈ layout.branches, ∃ branch ∈ layout.wholeBranches, rail.IsRailOf branch
  connected : ∀ branch ∈ layout.wholeBranches, ∃ opening closing outer bottom,
    layout.Connects config branch opening closing outer bottom
  horizontal : (layout.wires config).filter WireSegment.isHorizontal =
    (layout.runs config).flatMap layout.railWires
  vertical : (layout.wires config).filter WireSegment.isVertical =
    layout.powerRails config ++ layout.wholeBranches.flatMap (layout.dropWires config)
  /-- No wire begins where it ends. -/
  extended : ∀ segment ∈ layout.wires config,
    segment.isHorizontal = true ∨ segment.isVertical = true

end LayoutResult

/-! ### Wired rungs -/

theorem isWired_layout (rules : config.KeepsRules) {tree : RailTree}
    (distinct : (openedIds tree.drafts).Nodup) :
    (tree.layout config input).IsWired config tree.drafts := by
  let layout := tree.layout config input
  have recorded : layout.branches.map Branch.id = openedIds tree.drafts :=
    tree.map_id_records (.main config) 0 none
  have tiled (rail run) (hasRun : layout.HasRun config rail run) : layout.IsTiled run :=
    (isTiled_and_isLevel rules distinct hasRun).1
  refine ⟨tiled, recorded, ?whole, ?belongs, ?connected,
    LayoutResult.filter_isHorizontal_wires tiled, LayoutResult.filter_isVertical_wires tiled,
    fun _ => LayoutResult.isHorizontal_or_isVertical tiled⟩
  case whole =>
    refine fun id => ⟨fun starts => ?_, ?_⟩
    · have opened : id ∈ openedIds tree.drafts := List.mem_filterMap.mpr ⟨_, starts, rfl⟩
      rw [← recorded, List.mem_map] at opened
      obtain ⟨branch, member, rfl⟩ := opened
      exact ⟨branch, mem_wholeBranches_of_branchStart distinct member starts, rfl⟩
    · rintro ⟨branch, isWhole, rfl⟩
      obtain ⟨opening, _, marked⟩ := exists_isMarked rules isWhole
      exact branchStart_mem_drafts marked.opens marked.isStart
  case connected =>
    intro branch isWhole
    obtain ⟨opening, closing, marked⟩ := exists_isMarked rules isWhole
    have member := (LayoutResult.mem_wholeBranches.mp isWhole).1
    exact ⟨opening, closing, exists_connects rules distinct member marked⟩
  case belongs =>
    intro rail isRail
    obtain ⟨branch, member, ⟨opening, _, marked⟩, isPart⟩ := tree.isPartOf_of_mem rules _ _ _ isRail
    have starts := branchStart_mem_drafts marked.opens marked.isStart
    exact ⟨branch, mem_wholeBranches_of_branchStart distinct member starts,
      isPart.imp (congrArg Branch.id) id⟩

/--
Under a valid configuration a sequence that can be annotated is laid out, and the wires of this
layout tile each rail of the rung, from the left power rail to the right one and from the start of a
branch to its end marker, and connect its branches.
-/
theorem isWired_of_annotate (config : LayoutConfig Rat) (valid : config.isValid = true)
    (source : List Draft) (elements : List Element) (annotates : annotate source = .ok elements)
    (number : Address) (y commentLines : Rat) (arena : Arena Rat) :
    ∃ layout after,
      layoutRung config arena ⟨number, y, elements, commentLines⟩ = .ok (layout, after) ∧
        layout.IsWired config source := by
  have nested := wellNested_of_annotate annotates
  obtain ⟨tree, rfl⟩ := exists_railTree nested
  have rules := LayoutConfig.keepsRules_of_isValid valid
  exact ⟨_, _, layoutRung_eq rules (elements_of_annotate annotates) arena,
    isWired_layout rules nested.distinct⟩

theorem isWired_of_sampleRail :
    ∃ elements, annotate sampleRail.drafts = .ok elements ∧ ∃ layout after,
      layoutRung (.standard : LayoutConfig Rat) .empty ⟨.ofNat 0, 50, elements, 0⟩ =
        .ok (layout, after) ∧ layout.IsWired .standard sampleRail.drafts := by
  obtain ⟨elements, annotates⟩ : ∃ elements, annotate sampleRail.drafts = .ok elements :=
    ⟨_, rfl⟩
  exact ⟨elements, annotates, isWired_of_annotate .standard (by decide +kernel) sampleRail.drafts
    elements annotates (.ofNat 0) 50 0 .empty⟩

end LadderDiagram
