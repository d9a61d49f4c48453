import LadderDiagram.Proofs.Layout.RailItems

/-!
# Records and markers

Every marker that opens a rail has a record, in the order of the markers.  A record is that of a
branch, whose two markers stand where it begins and ends, or that of a further rail of such a
branch, which is opened by a next marker.
-/

namespace LadderDiagram

variable {config : LayoutConfig Rat} {input : RungInput Rat}

/-! ### Records -/

mutual

/-- There is one record for each rail that a marker opens, in the order of the markers. -/
theorem RailTree.map_id_records (site : RailSite) (position : Nat) (last : Option Rat) :
    ∀ tree : RailTree,
      (tree.records config input site position last).map Branch.id = openedIds tree.drafts
  | .nil => rfl
  | .instruction _ rest => rest.map_id_records site _ _
  | .branch id first further rest => by
      rw [openedIds_branch, RailTree.records, List.map_cons, List.map_append, List.map_append,
        first.map_id_records, further.map_id_records, rest.map_id_records]
      rfl

theorem FurtherRails.map_id_records (site : RailSite) (branch : Branch Rat) (position : Nat) :
    ∀ rails : FurtherRails,
      (rails.records config input site branch position).map Branch.id = openedIds rails.drafts
  | .nil => rfl
  | .rail id own others => by
      rw [openedIds_rail, FurtherRails.records, List.map_cons, List.map_append,
        own.map_id_records, others.map_id_records]
      rfl

end

theorem FurtherRails.branchNext_mem_of_ids {id : BranchId} (rails : FurtherRails)
    (member : id ∈ rails.ids) : .branchNext id ∈ rails.drafts := by
  cases rails with
  | nil => cases member
  | rail own tree others =>
      rcases List.mem_cons.mp member with rfl | member
      · exact List.mem_cons_self
      · exact List.mem_cons_of_mem _ (List.mem_append_right _ (others.branchNext_mem_of_ids member))

mutual

/-- The further rails of a branch are opened by next markers. -/
theorem RailTree.branchNext_mem_of_child (site : RailSite) (position : Nat) (last : Option Rat)
    {record : Branch Rat} {id : BranchId} (isChild : id ∈ record.childIds) :
    ∀ tree : RailTree, record ∈ tree.records config input site position last →
      .branchNext id ∈ tree.drafts
  | .nil, member => absurd member List.not_mem_nil
  | .instruction _ rest, member =>
      List.mem_cons_of_mem _ (rest.branchNext_mem_of_child site _ _ isChild member)
  | .branch _ first further rest, member => by
      rw [RailTree.drafts, List.mem_cons, List.mem_append, List.mem_append, List.mem_cons]
      rcases mem_records_branch.mp member with rfl | inFirst | inFurther | inRest
      · exact .inr (.inr (.inl (further.branchNext_mem_of_ids isChild)))
      · exact .inr (.inl (first.branchNext_mem_of_child _ _ _ isChild inFirst))
      · exact .inr (.inr (.inl (further.branchNext_mem_of_child _ _ _ isChild inFurther)))
      · exact .inr (.inr (.inr (.inr (rest.branchNext_mem_of_child site _ _ isChild inRest))))

theorem FurtherRails.branchNext_mem_of_child (site : RailSite) (branch : Branch Rat)
    (position : Nat) {record : Branch Rat} {id : BranchId} (isChild : id ∈ record.childIds) :
    ∀ rails : FurtherRails, record ∈ rails.records config input site branch position →
      .branchNext id ∈ rails.drafts
  | .nil, member => absurd member List.not_mem_nil
  | .rail _ own others, member => by
      rw [FurtherRails.drafts, List.mem_cons, List.mem_append]
      rcases mem_records_rail.mp member with rfl | inOwn | inOthers
      · cases isChild
      · exact .inr (.inl (own.branchNext_mem_of_child _ _ _ isChild inOwn))
      · exact .inr (.inr (others.branchNext_mem_of_child _ _ _ isChild inOthers))

end

/-! ### Markers -/

/-- The two markers of a branch stand where its record begins and ends, on a row above it. -/
structure Branch.IsMarked (branch : Branch Rat) (config : LayoutConfig Rat)
    (placed : List (LayoutElement Rat)) (opening closing : LayoutElement Rat) : Prop where
  opens : opening ∈ placed
  isStart : opening.element.draft = .branchStart branch.id
  closes : closing ∈ placed
  isEnd : closing.element.draft = .branchEnd branch.id
  opening_x : opening.x = branch.startX
  closing_x : closing.x = branch.endX - config.sizes.branchMarker.width
  above : opening.y < branch.branchY

/-- A record is that of a branch with its markers, or of a further rail of one. -/
def Branch.IsPartOf (record : Branch Rat) (config : LayoutConfig Rat)
    (placed : List (LayoutElement Rat)) (records : List (Branch Rat)) : Prop :=
  ∃ branch ∈ records, (∃ opening closing, branch.IsMarked config placed opening closing) ∧
    (record = branch ∨ record.id ∈ branch.childIds)

section Parts

variable {record branch : Branch Rat} {placed more : List (LayoutElement Rat)}
  {records moreRecords : List (Branch Rat)}

theorem Branch.IsPartOf.mono (isPart : record.IsPartOf config placed records)
    (subset : placed ⊆ more) (recordsSubset : records ⊆ moreRecords) :
    record.IsPartOf config more moreRecords := by
  obtain ⟨branch, member, ⟨opening, closing, marked⟩, part⟩ := isPart
  exact ⟨branch, recordsSubset member, ⟨opening, closing,
    { marked with opens := subset marked.opens, closes := subset marked.closes }⟩, part⟩

mutual

/-- Every record is that of a branch on the rail, or of a further rail of one. -/
theorem RailTree.isPartOf_of_mem (rules : config.KeepsRules) (site : RailSite) (position : Nat)
    (last : Option Rat) :
    ∀ tree : RailTree, record ∈ tree.records config input site position last →
      record.IsPartOf config (tree.placed config input site position last)
        (tree.records config input site position last)
  | .nil, member => absurd member List.not_mem_nil
  | .instruction _ rest, member =>
      (rest.isPartOf_of_mem rules site _ _ member).mono (List.subset_cons_self _ _)
        fun _ inner => inner
  | .branch id first further rest, member => by
      let startX := config.itemX site.originX last
      let branch := site.branchRecord config input position id startX first further
      have marked : ∃ opening closing, branch.IsMarked config
          ((RailTree.branch id first further rest).placed config input site position last)
          opening closing := by
        refine ⟨site.put config input position (.branchStart id) startX, site.put config input
          (position + 1 + first.drafts.length + further.drafts.length) (.branchEnd id)
          (config.behind (branchReach config startX first further)),
          mem_placed_branch.mpr (.inl rfl), rfl,
          mem_placed_branch.mpr (.inr (.inr (.inr (.inl rfl)))), rfl, rfl,
          endX_branchRecord.symm, ?_⟩
        exact input.rowY_strictMono rules (Nat.lt_succ_self site.row)
      have own : branch ∈ (RailTree.branch id first further rest).records config input site position
          last := mem_records_branch.mpr (.inl rfl)
      rcases mem_records_branch.mp member with rfl | inFirst | inFurther | inRest
      · exact ⟨branch, own, marked, .inl rfl⟩
      · exact (first.isPartOf_of_mem rules _ _ _ inFirst).mono
          (fun _ inner => mem_placed_branch.mpr (.inr (.inl inner)))
          fun _ inner => mem_records_branch.mpr (.inr (.inl inner))
      · rcases further.isPartOf_of_mem rules _ _ _ inFurther with isChild | isPart
        · exact ⟨branch, own, marked, .inr isChild⟩
        · exact isPart.mono (fun _ inner => mem_placed_branch.mpr (.inr (.inr (.inl inner))))
            fun _ inner => mem_records_branch.mpr (.inr (.inr (.inl inner)))
      · exact (rest.isPartOf_of_mem rules site _ _ inRest).mono
          (fun _ inner => mem_placed_branch.mpr (.inr (.inr (.inr (.inr inner)))))
          fun _ inner => mem_records_branch.mpr (.inr (.inr (.inr inner)))

theorem FurtherRails.isPartOf_of_mem (rules : config.KeepsRules) (site : RailSite)
    (branch : Branch Rat) (position : Nat) :
    ∀ rails : FurtherRails, record ∈ rails.records config input site branch position →
      record.id ∈ rails.ids ∨
        record.IsPartOf config (rails.placed config input site position)
          (rails.records config input site branch position)
  | .nil, member => absurd member List.not_mem_nil
  | .rail id own others, member => by
      rcases mem_records_rail.mp member with rfl | inOwn | inOthers
      · exact .inl List.mem_cons_self
      · exact .inr ((own.isPartOf_of_mem rules _ _ _ inOwn).mono
          (fun _ inner => mem_placed_rail.mpr (.inr (.inl inner)))
          fun _ inner => mem_records_rail.mpr (.inr (.inl inner)))
      · rcases others.isPartOf_of_mem rules _ _ _ inOthers with isChild | isPart
        · exact .inl (List.mem_cons_of_mem _ isChild)
        · exact .inr (isPart.mono (fun _ inner => mem_placed_rail.mpr (.inr (.inr inner)))
            fun _ inner => mem_records_rail.mpr (.inr (.inr inner)))

end

end Parts

end LadderDiagram
