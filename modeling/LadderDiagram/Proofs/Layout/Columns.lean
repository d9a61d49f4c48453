import LadderDiagram.Proofs.Layout.Placement

/-!
# Columns

How far the items of a rail and the rails of a branch reach.  Under a valid configuration
every item stands behind the one before it on its rail, and the end marker of a branch
behind everything inside the branch.
-/

namespace LadderDiagram

variable {config : LayoutConfig Rat}

theorem LayoutConfig.KeepsRules.draftSize (rules : config.KeepsRules) (draft : Draft) :
    config.FitsRow (config.draftSize draft) := by
  cases draft with
  | instruction content => exact rules.element content.category
  | branchStart id => exact rules.marker
  | branchNext id => exact rules.marker
  | branchEnd id => exact rules.marker

theorem LayoutConfig.KeepsRules.le_behind (rules : config.KeepsRules) (right : Rat) :
    right ≤ config.behind right := by
  have spacing : 0 ≤ config.elementSpacing := rules.nonneg .elementSpacing
  have wire : 0 ≤ config.minimumWireLength := rules.nonneg .minimumWireLength
  unfold LayoutConfig.behind
  linarith

/-- A right edge, if there is one, is not beyond another one. -/
def ReachesTo (first second : Option Rat) : Prop :=
  ∀ right ∈ first, ∃ further ∈ second, right ≤ further

theorem ReachesTo.refl (last : Option Rat) : ReachesTo last last :=
  fun right member => ⟨right, member, le_refl right⟩

theorem ReachesTo.trans {first second third : Option Rat} (reaches : ReachesTo first second)
    (further : ReachesTo second third) : ReachesTo first third := by
  intro right member
  obtain ⟨between, betweenMember, near⟩ := reaches right member
  obtain ⟨last, lastMember, far⟩ := further between betweenMember
  exact ⟨last, lastMember, near.trans far⟩

theorem reachesTo_some {right further : Rat} (le : right ≤ further) :
    ReachesTo (some right) (some further) := by
  rintro _ ⟨⟩
  exact ⟨further, rfl, le⟩

variable (config) in
/-- The start marker of a branch is not beyond any of its further rails. -/
theorem FurtherRails.marker_le_reach (startX : Rat) (rails : FurtherRails) :
    startX + config.sizes.branchMarker.width ≤ rails.reach config startX := by
  cases rails with
  | nil => exact le_refl _
  | rail id own others =>
      rw [FurtherRails.reach]
      exact (others.marker_le_reach startX).trans (le_max_right _ _)

variable (config) in
theorem marker_le_branchReach (startX : Rat) (first : RailTree) (further : FurtherRails) :
    startX + config.sizes.branchMarker.width ≤ branchReach config startX first further :=
  (further.marker_le_reach config startX).trans (le_max_right _ _)

namespace LayoutConfig.KeepsRules

variable (rules : config.KeepsRules)

include rules

/-- An item stands behind the one before it on its rail. -/
theorem reachesTo_itemX (originX : Rat) (last : Option Rat) {width : Rat} (positive : 0 < width) :
    ReachesTo last (some (config.itemX originX last + width)) := by
  intro right member
  obtain rfl : last = some right := member
  refine ⟨_, rfl, ?_⟩
  have behind := rules.le_behind right
  unfold LayoutConfig.itemX
  linarith

/-- An item is not before the one that stands behind it. -/
theorem le_behind_add (x : Rat) {width : Rat} (positive : 0 < width) :
    x ≤ config.behind (x + width) :=
  (le_add_of_nonneg_right positive.le).trans (rules.le_behind _)

theorem startX_le_branchReach (startX : Rat) (first : RailTree) (further : FurtherRails) :
    startX ≤ branchReach config startX first further :=
  (le_add_of_nonneg_right rules.marker.width.le).trans (marker_le_branchReach config startX _ _)

theorem branchReach_le_branchRight (startX : Rat) (first : RailTree) (further : FurtherRails) :
    branchReach config startX first further ≤ branchRight config startX first further :=
  (rules.le_behind _).trans (le_add_of_nonneg_right rules.marker.width.le)

theorem startX_le_branchRight (startX : Rat) (first : RailTree) (further : FurtherRails) :
    startX ≤ branchRight config startX first further :=
  (rules.startX_le_branchReach startX first further).trans
    (rules.branchReach_le_branchRight startX first further)

theorem reachesTo_branchRight (originX : Rat) (last : Option Rat) (first : RailTree)
    (further : FurtherRails) :
    ReachesTo last (some (branchRight config (config.itemX originX last) first further)) :=
  (rules.reachesTo_itemX originX last rules.marker.width).trans
    (reachesTo_some ((marker_le_branchReach config _ first further).trans
      (rules.branchReach_le_branchRight _ first further)))

/-- The items of a rail stand one behind the other. -/
theorem reachesTo_lastRight (originX : Rat) (last : Option Rat) (tree : RailTree) :
    ReachesTo last (tree.lastRight config originX last) := by
  cases tree with
  | nil => exact .refl last
  | instruction content rest =>
      exact (rules.reachesTo_itemX originX last (rules.element content.category).width).trans
        (reachesTo_lastRight originX _ rest)
  | branch id first further rest =>
      rw [RailTree.lastRight_branch]
      exact (rules.reachesTo_branchRight originX last first further).trans
        (reachesTo_lastRight originX _ rest)

end LayoutConfig.KeepsRules

end LadderDiagram
