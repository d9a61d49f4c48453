import LadderDiagram.Proofs.Layout.Columns

/-!
# What a pass notes of a rail

While the elements of a rail are laid out, the pass notes three things of it: the right
edge of its last item, the columns and the rows in use.  What is noted later makes up for
what was noted before, so a state is described by where it began and how far its rail has
come since then.
-/

namespace LadderDiagram

variable {config : LayoutConfig Rat}

/-- The greater one of an edge and the right edge of an item, if there is one. -/
def widest (edge : Rat) : Option Rat → Rat
  | none => edge
  | some right => max edge right

theorem widest_widest {edge : Rat} {first second : Option Rat} (reaches : ReachesTo first second) :
    widest (widest edge first) second = widest edge second := by
  cases first with
  | none => rfl
  | some right =>
      obtain ⟨further, rfl, le⟩ := reaches right rfl
      simp only [widest, max_assoc, max_eq_right le]

theorem widest_eq_self {edge : Rat} {last : Option Rat} (within : ∀ right ∈ last, right ≤ edge) :
    widest edge last = edge := by
  cases last with
  | none => rfl
  | some right => exact max_eq_left (within right rfl)

theorem widest_mono {edge other : Rat} (le : edge ≤ other) (last : Option Rat) :
    widest edge last ≤ widest other last := by
  cases last with
  | none => exact le
  | some right => exact max_le_max_right right le

/-- An edge that is not before the start marker of a branch is compared with any rail alike. -/
theorem widest_eq_max_railReach {edge startX : Rat}
    (marker_le : startX + config.sizes.branchMarker.width ≤ edge) (last : Option Rat) :
    widest edge last = max edge (config.railReach startX last) := by
  cases last with
  | none => exact (max_eq_left marker_le).symm
  | some right => rfl

theorem le_widest (edge : Rat) (last : Option Rat) : edge ≤ widest edge last := by
  cases last with
  | none => exact le_refl edge
  | some right => exact le_max_left edge right

theorem le_widest_of_mem (edge : Rat) {last : Option Rat} {right : Rat} (member : right ∈ last) :
    right ≤ widest edge last := by
  obtain rfl : last = some right := member
  exact le_max_right edge right

/-- The cursor on a rail behind an item with the right edge `last`. -/
def RailSite.cursor (site : RailSite) (last : Option Rat) : RailCursor Rat :=
  ⟨site.railId, site.originX, (site.row : Rat), last⟩

/-- A branch that has just been opened, with its record in some place. -/
def RailSite.openContext (site : RailSite) (config : LayoutConfig Rat) (id : BranchId)
    (startX : Rat) (slot : Nat) : OpenContext Rat where
  slot := slot
  rail := (site.inside id startX).cursor none
  children := []
  maxRight := startX + config.sizes.branchMarker.width
  maxRow := ((site.row + 1 : Nat) : Rat)

/-- A branch once its current rail reaches to `last`, and what stands on it down to `row`. -/
def OpenContext.reached (context : OpenContext Rat) (last : Option Rat) (row : Rat) :
    OpenContext Rat :=
  { context with
    rail := { context.rail with lastRight := last }
    maxRight := widest context.maxRight last
    maxRow := max context.maxRow row }

/-- A branch once a further rail of it has been begun, with its record in some place. -/
def OpenContext.onRail (context : OpenContext Rat) (site : RailSite) (slot : Nat) :
    OpenContext Rat :=
  { context with
    rail := site.cursor none
    children := context.children ++ [slot]
    maxRow := (site.row : Rat) }

namespace LayoutState

/-- A state once its current rail reaches to `last`, and what stands on it down to `row`. -/
def reached (state : LayoutState Rat) (last : Option Rat) (row : Rat) : LayoutState Rat :=
  match state.pass.contexts with
  | [] =>
      { state with
        mainRail := { state.mainRail with lastRight := last }
        maxRow := max state.maxRow row
        rightEdge := widest state.rightEdge last }
  | context :: outer =>
      { state with
        pass := { state.pass with contexts := context.reached last row :: outer }
        maxRow := max state.maxRow row
        rightEdge := widest state.rightEdge last }

/-- A state with more elements and records. -/
def recorded (state : LayoutState Rat) (placed : List (LayoutElement Rat))
    (records : List (Branch Rat)) : LayoutState Rat :=
  { state with
    placed := placed.reverse ++ state.placed
    pass := { state.pass with records := state.pass.records ++ records } }

/-- The pass stands on a rail behind an item with the right edge `last`. -/
structure StandsOn (state : LayoutState Rat) (site : RailSite) (last : Option Rat) : Prop where
  rail : state.rail = site.cursor last
  row_le : (site.row : Rat) ≤ state.maxRow
  last_le : ∀ right ∈ last, right ≤ state.rightEdge
  top : ∀ context ∈ state.pass.contexts.head?,
    (site.row : Rat) ≤ context.maxRow ∧ ∀ right ∈ last, right ≤ context.maxRight

variable {state : LayoutState Rat} {site : RailSite} {last : Option Rat}

theorem reached_self (stands : state.StandsOn site last) :
    state.reached last site.row = state := by
  obtain ⟨⟨arena, rung, contexts, records⟩, mainRail, maxRow, rightEdge, placed⟩ := state
  obtain ⟨rail, row_le, last_le, top⟩ := stands
  cases contexts with
  | nil =>
      obtain rfl : mainRail = site.cursor last := rail
      simp only [reached, widest_eq_self last_le, max_eq_left row_le]
      rfl
  | cons context outer =>
      obtain ⟨slot, own, children, maxRight, ownRow⟩ := context
      obtain rfl : own = site.cursor last := rail
      obtain ⟨ownRow_le, right_le⟩ := top _ rfl
      simp only [reached, OpenContext.reached, widest_eq_self last_le, max_eq_left row_le,
        widest_eq_self right_le, max_eq_left ownRow_le]
      rfl

theorem reached_reached {next : Option Rat} (reaches : ReachesTo last next) (row lower : Rat) :
    (state.reached last row).reached next lower = state.reached next (max row lower) := by
  obtain ⟨⟨arena, rung, contexts, records⟩, mainRail, maxRow, rightEdge, placed⟩ := state
  cases contexts with
  | nil => simp only [reached, widest_widest reaches, max_assoc]
  | cons context outer =>
      simp only [reached, OpenContext.reached, widest_widest reaches, max_assoc]

/-- A state with other bounds of the whole rung. -/
def bounded (state : LayoutState Rat) (maxRow rightEdge : Rat) : LayoutState Rat :=
  { state with maxRow := maxRow, rightEdge := rightEdge }

theorem reached_bounded {right row maxRow rightEdge : Rat}
    (sameRow : max maxRow row = max state.maxRow row)
    (sameEdge : max rightEdge right = max state.rightEdge right) :
    (state.bounded maxRow rightEdge).reached (some right) row =
      state.reached (some right) row := by
  obtain ⟨⟨arena, rung, contexts, records⟩, mainRail, ownRow, ownEdge, placed⟩ := state
  cases contexts with
  | nil => simp only [bounded, reached, widest, sameRow, sameEdge]
  | cons context outer => simp only [bounded, reached, widest, sameRow, sameEdge]

theorem recorded_nil : state.recorded [] [] = state := by
  unfold recorded
  rw [List.append_nil]
  rfl

theorem recorded_recorded (first second : List (LayoutElement Rat))
    (records others : List (Branch Rat)) :
    (state.recorded first records).recorded second others =
      state.recorded (first ++ second) (records ++ others) := by
  unfold recorded
  rw [List.reverse_append, List.append_assoc, List.append_assoc]

theorem reached_recorded (placed : List (LayoutElement Rat)) (records : List (Branch Rat))
    (row : Rat) :
    (state.recorded placed records).reached last row =
      (state.reached last row).recorded placed records := by
  obtain ⟨⟨arena, rung, contexts, own⟩, mainRail, maxRow, rightEdge, before⟩ := state
  cases contexts <;> rfl

theorem StandsOn.recorded (stands : state.StandsOn site last)
    (placed : List (LayoutElement Rat)) (records : List (Branch Rat)) :
    (state.recorded placed records).StandsOn site last :=
  ⟨stands.rail, stands.row_le, stands.last_le, stands.top⟩

theorem StandsOn.reached (stands : state.StandsOn site last) (next : Option Rat) (row : Rat) :
    (state.reached next row).StandsOn site next := by
  obtain ⟨⟨arena, rung, contexts, records⟩, mainRail, maxRow, rightEdge, placed⟩ := state
  obtain ⟨rail, row_le, last_le, top⟩ := stands
  cases contexts with
  | nil =>
      obtain rfl : mainRail = site.cursor last := rail
      exact ⟨rfl, row_le.trans (le_max_left _ _), fun _ => le_widest_of_mem _,
        fun _ member => by cases member⟩
  | cons context outer =>
      obtain ⟨slot, own, children, maxRight, ownRow⟩ := context
      obtain rfl : own = site.cursor last := rail
      refine ⟨rfl, row_le.trans (le_max_left _ _), fun _ => le_widest_of_mem _, ?_⟩
      rintro _ ⟨⟩
      exact ⟨(top _ rfl).1.trans (le_max_left _ _), fun _ => le_widest_of_mem _⟩

variable (config) in
theorem nextX_eq (stands : state.StandsOn site last) :
    nextX config state.rail = config.itemX site.originX last := by
  rw [stands.rail]
  cases last <;> rfl

theorem takePlace_eq (stands : state.StandsOn site last) (width : Rat) :
    state.takePlace config width =
      (config.itemX site.originX last,
        state.reached (some (config.itemX site.originX last + width)) site.row) := by
  have x := nextX_eq config stands
  obtain ⟨⟨arena, rung, contexts, records⟩, mainRail, maxRow, rightEdge, placed⟩ := state
  obtain ⟨rail, row_le, last_le, top⟩ := stands
  unfold takePlace
  rw [x]
  cases contexts with
  | nil =>
      simp only [reached, widest, max_eq_left row_le, Scalar.max_rat]
      rfl
  | cons context outer =>
      simp only [reached, OpenContext.reached, widest, max_eq_left row_le,
        max_eq_left (top _ rfl).1, Scalar.max_rat]
      rfl

end LayoutState

end LadderDiagram
