import LadderDiagram.Proofs.Layout.Markers
import LadderDiagram.Proofs.Layout.Tiling

/-!
# The runs of a rung

The wires along a rail are drawn between what is filtered out of all the elements of the rung.
That gives the items of the rail, which are on one row, so the wires complete the way along it from
one end to the other: from the left power rail to the right one, or from the start of a branch to
its end marker.
-/

namespace LadderDiagram

variable {config : LayoutConfig Rat} {input : RungInput Rat} {site : RailSite}

/-! ### Runs -/

/-- What stands on a rail is drawn on its row, and none of it opens a further rail. -/
theorem RailTree.of_mem_items {item : LayoutElement Rat} {position : Nat} {last : Option Rat}
    (tree : RailTree) (member : item ∈ tree.items config input site position last) :
    item.railId = site.railId ∧ item.kind ≠ .branchNext ∧
      item.y = input.rowY config (site.row : Rat) := by
  cases tree with
  | nil => cases member
  | instruction content rest =>
      rcases List.mem_cons.mp member with rfl | member
      · exact ⟨rfl, nofun, rfl⟩
      · exact rest.of_mem_items member
  | branch id first further rest =>
      rcases List.mem_cons.mp member with rfl | member
      · exact ⟨rfl, nofun, rfl⟩
      rcases List.mem_cons.mp member with rfl | member
      · exact ⟨rfl, nofun, rfl⟩
      · exact rest.of_mem_items member

section IsRailOf

variable {placed head : List (LayoutElement Rat)} {start : Nat} {own : RailTree}

/-- The elements of a rail, without the next marker that may open it, are its items. -/
theorem IsRailOf.filter_eq_items (isRail : IsRailOf config input placed head site start own)
    (drawn : ∀ element ∈ placed, element.railId = element.element.railId)
    {runs : LayoutElement Rat → Bool}
    (runs_iff : ∀ element, runs element = true ↔
      element.railId = site.railId ∧ (head = [] ∨ element.kind ≠ .branchNext)) :
    placed.filter runs = own.items config input site start none := by
  have within : placed.filter runs = (placed.filter (·.touches site.railId)).filter runs := by
    rw [List.filter_filter]
    refine List.filter_congr fun element member => ?_
    cases isRun : runs element with
    | false => rfl
    | true =>
        have onRail := ((runs_iff element).mp isRun).1
        rw [LayoutElement.touches, ← drawn element member, onRail, beq_self_eq_true]
        rfl
  have skips : head.filter runs = [] := by
    refine List.filter_eq_nil_iff.mpr fun marker member isRun => ?_
    obtain ⟨onRail, isMain | stays⟩ := (runs_iff marker).mp isRun
    · rw [isMain] at member
      cases member
    obtain ⟨⟨id, opens⟩, apart⟩ := isRail.head_apart marker member
    unfold LayoutElement.kind Element.kind at stays
    cases draft : marker.element.draft with
    | instruction content => simp [Element.openedRail?, draft, Draft.openedRail?] at opens
    | branchStart id => exact apart id draft onRail
    | branchNext id => exact stays (by rw [draft]; rfl)
    | branchEnd id => simp [Element.openedRail?, draft, Draft.openedRail?] at opens
  have keeps : (own.items config input site start none).filter runs =
      own.items config input site start none :=
    List.filter_eq_self.mpr fun item member =>
      (runs_iff item).mpr ⟨(own.of_mem_items member).1, .inr (own.of_mem_items member).2.1⟩
  rw [within, isRail.elements, List.filter_append, skips, keeps, List.nil_append]

end IsRailOf

namespace LayoutResult

variable (layout : LayoutResult Rat) (config : LayoutConfig Rat)

/-- The run of a rail of a laid-out rung: the main one, or one with a record. -/
inductive HasRun : Option BranchId → RailRun Rat → Prop
  | main : HasRun none (layout.mainRun config)
  | branch {rail : Branch Rat} : rail ∈ layout.branches →
      HasRun (some rail.id) (layout.branchRun config rail)

/-- The elements of a run stand on the row of its wire. -/
def IsLevel (run : RailRun Rat) : Prop :=
  ∀ placed ∈ run.members, placed.y + wireOffset config = run.wireY

end LayoutResult

section Layout

variable {tree : RailTree}

theorem wireY_mainRun : ((tree.layout config input).mainRun config).wireY =
    input.rowY config ((RailSite.main config).row : Rat) + LayoutResult.wireOffset config := by
  change input.y + config.rungPadding + input.commentLines * config.commentLineHeight + _ = _
  unfold RungInput.rowY RungInput.commentHeight
  rw [show ((RailSite.main config).row : Rat) = 0 from Nat.cast_zero, zero_mul, add_zero]

theorem members_mainRun (distinct : (openedIds tree.drafts).Nodup) :
    ((tree.layout config input).mainRun config).members =
      tree.items config input (.main config) 0 none := by
  refine (tree.isRailOf_main distinct).filter_eq_items
    (fun _ => tree.railId_of_mem_placed _ _ _) fun element => ?_
  rw [and_iff_left (Or.inl rfl), Option.isNone_iff_eq_none]
  rfl

theorem isTiled_mainRun (rules : config.KeepsRules) (distinct : (openedIds tree.drafts).Nodup) :
    (tree.layout config input).IsTiled ((tree.layout config input).mainRun config) := by
  have reaches : (RailSite.main config).reached
      (tree.lastRight config (RailSite.main config).originX none) ≤
        ((tree.layout config input).mainRun config).endX :=
    (le_add_of_nonneg_right rules.railOffset.le).trans (le_max_right _ _)
  obtain ⟨pieces, along⟩ := tree.exists_areAlong rules 0 none none reaches
  rw [← members_mainRun distinct] at along
  exact along.isTiled

theorem isLevel_mainRun (distinct : (openedIds tree.drafts).Nodup) :
    LayoutResult.IsLevel config ((tree.layout config input).mainRun config) := by
  intro placed member
  rw [members_mainRun distinct] at member
  rw [wireY_mainRun, (tree.of_mem_items member).2.2]

variable {id : BranchId} {marker : LayoutElement Rat} {record : Branch Rat} {position : Nat}
  {own : RailTree}

section HoldsRail

variable (holds : HoldsRail config input (tree.placed config input (.main config) 0 none)
  (tree.records config input (.main config) 0 none) id marker record site position own)

include holds

theorem members_branchRun : ((tree.layout config input).branchRun config record).members =
    own.items config input site (position + 1) none := by
  refine holds.isRailOf.filter_eq_items (fun _ => tree.railId_of_mem_placed _ _ _)
    fun element => ?_
  rw [holds.record_id, holds.railId, Bool.and_eq_true, beq_iff_eq, bne_iff_ne]
  exact and_congr_right' (or_iff_right (List.cons_ne_nil _ _)).symm

theorem wireY_branchRun : ((tree.layout config input).branchRun config record).wireY =
    input.rowY config (site.row : Rat) + LayoutResult.wireOffset config := by
  rw [← holds.record_row]
  rfl

theorem isTiled_branchRun (rules : config.KeepsRules) :
    (tree.layout config input).IsTiled ((tree.layout config input).branchRun config record) := by
  let run := (tree.layout config input).branchRun config record
  have begins : run.startX = site.originX := holds.record_start
  have reaches : site.reached (own.lastRight config site.originX none) ≤ run.endX := by
    refine le_trans ?_ holds.reaches
    refine le_trans ?_ (rules.le_behind _)
    unfold RailSite.reached
    cases own.lastRight config site.originX none with
    | none => exact le_add_of_nonneg_right rules.marker.width.le
    | some right => exact le_refl right
  obtain ⟨pieces, along⟩ := own.exists_areAlong rules (position + 1) none none reaches
  rw [← members_branchRun holds, RailSite.reached, Option.getD_none, ← begins] at along
  exact along.isTiled

theorem isLevel_branchRun : LayoutResult.IsLevel config
    ((tree.layout config input).branchRun config record) := by
  intro placed member
  rw [members_branchRun holds] at member
  rw [wireY_branchRun holds, (own.of_mem_items member).2.2]

end HoldsRail

/-- A record of a rung is that of a rail which the rung holds. -/
theorem exists_holdsRail (distinct : (openedIds tree.drafts).Nodup)
    (member : record ∈ tree.records config input (.main config) 0 none) :
    ∃ marker site position own,
      HoldsRail config input (tree.placed config input (.main config) 0 none)
        (tree.records config input (.main config) 0 none) record.id marker record site position
        own := by
  have ids : (tree.records config input (.main config) 0 none).map Branch.id =
      openedIds tree.drafts := tree.map_id_records _ _ _
  have opened : record.id ∈ openedIds tree.drafts := ids ▸ List.mem_map_of_mem member
  have has : HasRail config input (tree.placed config input (.main config) 0 none)
      (tree.records config input (.main config) 0 none) record.id :=
    tree.hasRail (.main config) 0 none distinct not_opens_none opened
  obtain ⟨marker, found, site, position, own, holds⟩ := has
  have unique := List.inj_on_of_nodup_map (ids ▸ distinct)
  obtain rfl := unique holds.member member holds.record_id
  exact ⟨marker, site, position, own, holds⟩

/-- Every run of a rung is covered, and its elements stand on one row. -/
theorem isTiled_and_isLevel (rules : config.KeepsRules) (distinct : (openedIds tree.drafts).Nodup)
    {rail : Option BranchId} {run : RailRun Rat}
    (hasRun : (tree.layout config input).HasRun config rail run) :
    (tree.layout config input).IsTiled run ∧ LayoutResult.IsLevel config run := by
  cases hasRun with
  | main => exact ⟨isTiled_mainRun rules distinct, isLevel_mainRun distinct⟩
  | branch member =>
      obtain ⟨marker, site, position, own, holds⟩ := exists_holdsRail distinct member
      exact ⟨isTiled_branchRun holds rules, isLevel_branchRun holds⟩

end Layout

end LadderDiagram
