import LadderDiagram.Layout.Wire
import LadderDiagram.Proofs.Layout.RailRow

/-!
# The way along a rail

Between the ends of a rail there are its instructions, its branches from one marker to the other,
and wires.  Each of these pieces begins where the one before it ends, so the way is covered
without a gap and without an overlap.  Wires stand wherever two items are apart; where a
configuration puts no space between them there is none.
-/

namespace LadderDiagram

/-- A piece of the way along a rail. -/
inductive RailPiece
  | wire (segment : WireSegment Rat)
  | box (placed : LayoutElement Rat)
  /-- A branch on the rail, from its start marker to its end marker. -/
  | span (opening closing : LayoutElement Rat)

namespace RailPiece

def left : RailPiece → Rat
  | .wire segment => segment.x1
  | .box placed => placed.x
  | .span opening _ => opening.x

def right : RailPiece → Rat
  | .wire segment => segment.x2
  | .box placed => placed.right
  | .span _ closing => closing.right

def segment? : RailPiece → Option (WireSegment Rat)
  | .wire segment => some segment
  | _ => none

/-- The elements at the ends of a piece. -/
def members : RailPiece → List (LayoutElement Rat)
  | .wire _ => []
  | .box placed => [placed]
  | .span opening closing => [opening, closing]

/-- What a piece of a rail may be. -/
def IsOn (run : RailRun Rat) : RailPiece → Prop
  | .wire segment => segment.y1 = run.wireY ∧ segment.y2 = run.wireY
  | .box placed => ∃ content, placed.element.draft = .instruction content
  | .span opening closing =>
      ∃ id, opening.element.draft = .branchStart id ∧ closing.element.draft = .branchEnd id

/-- Pieces that lead from one place to another, each of them to the place where the next begins. -/
def Lead (start finish : Rat) : List RailPiece → Prop
  | [] => start = finish
  | piece :: rest => piece.left = start ∧ start < piece.right ∧ Lead piece.right finish rest

/-- Whether a place is on a piece, which does not have its right end. -/
def covers (x : Rat) (piece : RailPiece) : Bool := decide (piece.left ≤ x ∧ x < piece.right)

theorem Lead.le {start finish : Rat} {pieces : List RailPiece} (leads : Lead start finish pieces) :
    start ≤ finish := by
  induction pieces generalizing start with
  | nil => exact le_of_eq leads
  | cons piece rest ih =>
      obtain ⟨_, further, later⟩ := leads
      exact further.le.trans (ih later)

theorem Lead.lt_of_mem {start finish : Rat} {pieces : List RailPiece} {piece : RailPiece}
    (leads : Lead start finish pieces) (member : piece ∈ pieces) : piece.left < piece.right := by
  induction pieces generalizing start with
  | nil => cases member
  | cons first rest ih =>
      obtain ⟨begins, further, later⟩ := leads
      rcases List.mem_cons.mp member with rfl | member
      · exact begins.trans_lt further
      · exact ih later member

theorem Lead.between_of_mem {start finish : Rat} {pieces : List RailPiece} {piece : RailPiece}
    (leads : Lead start finish pieces) (member : piece ∈ pieces) :
    start ≤ piece.left ∧ piece.right ≤ finish := by
  induction pieces generalizing start with
  | nil => cases member
  | cons first rest ih =>
      obtain ⟨begins, further, later⟩ := leads
      rcases List.mem_cons.mp member with rfl | member
      · exact ⟨begins.ge, later.le⟩
      · exact ⟨further.le.trans (ih later member).1, (ih later member).2⟩

/-- Every place between the ends is on one piece, and no other place is on any. -/
theorem Lead.countP_covers {start finish : Rat} {pieces : List RailPiece}
    (leads : Lead start finish pieces) (x : Rat) :
    pieces.countP (covers x) = if start ≤ x ∧ x < finish then 1 else 0 := by
  induction pieces generalizing start with
  | nil =>
      obtain rfl : start = finish := leads
      rw [List.countP_nil, if_neg fun between => absurd between.2 (not_lt.mpr between.1)]
  | cons piece rest ih =>
      obtain ⟨rfl, further, later⟩ := leads
      have le := Lead.le later
      have own : (if covers x piece then 1 else 0) =
          if piece.left ≤ x ∧ x < piece.right then 1 else 0 :=
        if_congr decide_eq_true_iff rfl rfl
      rw [List.countP_cons, ih later, own]
      by_cases here : x < piece.right
      · rw [if_neg fun between => absurd here (not_lt.mpr between.1), Nat.zero_add]
        exact if_congr (and_congr_right fun _ => iff_of_true here (here.trans_le le)) rfl rfl
      · rw [if_neg fun between : _ ∧ _ => here between.2, Nat.add_zero]
        have behind := not_lt.mp here
        have starts := further.le.trans behind
        exact if_congr (and_congr_left fun _ => iff_of_true behind starts) rfl rfl

/-- The wire up to an item, if there is any way to it. -/
def gap (number : Address) (y start finish : Rat) : List RailPiece :=
  if start < finish then [.wire ⟨number, start, y, finish, y⟩] else []

section Gap

variable {number : Address} {y start next finish : Rat} {pieces : List RailPiece}

theorem Lead.gap_append (le : start ≤ next) (leads : Lead next finish pieces) :
    Lead start finish (gap number y start next ++ pieces) := by
  unfold gap
  split
  · exact ⟨rfl, ‹_›, leads⟩
  · obtain rfl := le.antisymm (not_lt.mp ‹_›)
    exact leads

theorem members_gap : (gap number y start finish).flatMap members = [] := by
  unfold gap
  split <;> rfl

theorem isOn_of_mem_gap {run : RailRun Rat} {piece : RailPiece}
    (member : piece ∈ gap number run.wireY start finish) : piece.IsOn run := by
  unfold gap at member
  split at member
  · rw [List.mem_singleton.mp member]
    exact ⟨rfl, rfl⟩
  · cases member

end Gap

end RailPiece

namespace LayoutResult

variable {layout : LayoutResult Rat} {run : RailRun Rat}

/-- A wire is there unless its ends are the same place. -/
theorem wire_eq (layout : LayoutResult Rat) (x1 y1 x2 y2 : Rat) :
    layout.wire x1 y1 x2 y2 =
      if x1 = x2 ∧ y1 = y2 then [] else [⟨layout.rungNumber, x1, y1, x2, y2⟩] := by
  unfold wire
  exact if_congr (by rw [Bool.and_eq_true]; exact and_congr decide_eq_true_iff decide_eq_true_iff)
    rfl rfl

theorem filterMap_gap (layout : LayoutResult Rat) (y start finish : Rat) :
    (RailPiece.gap layout.rungNumber y start finish).filterMap RailPiece.segment? =
      if Scalar.lt start finish then layout.wire start y finish y else [] := by
  have lt : Scalar.lt start finish = true ↔ start < finish := decide_eq_true_iff
  unfold RailPiece.gap
  by_cases less : start < finish
  · rw [if_pos less, if_pos (lt.mpr less), wire_eq, if_neg fun same => less.ne same.1]
    rfl
  · rw [if_neg less, if_neg (mt lt.mp less)]
    rfl

/--
Pieces from a place on a rail to its end: they have the wires of the rail that are left there,
and the elements that are left as instructions and as branches.
-/
structure AreAlong (layout : LayoutResult Rat) (run : RailRun Rat) (start : Rat)
    (previous : Option (LayoutElement Rat)) (members : List (LayoutElement Rat))
    (pieces : List RailPiece) : Prop where
  leads : RailPiece.Lead start run.endX pieces
  isOn : ∀ piece ∈ pieces, piece.IsOn run
  segments_eq : pieces.filterMap RailPiece.segment? = layout.wiresAlong run start previous members
  members_eq : pieces.flatMap RailPiece.members = members

/--
The way along a rail is covered by its wires, its instructions and its branches: every place on
it by one of them, and no other place by any.
-/
def IsTiled (layout : LayoutResult Rat) (run : RailRun Rat) : Prop :=
  ∃ pieces, layout.AreAlong run run.startX none run.members pieces ∧
    ∀ x, pieces.countP (RailPiece.covers x) = if run.startX ≤ x ∧ x < run.endX then 1 else 0

theorem AreAlong.isTiled {pieces : List RailPiece}
    (along : layout.AreAlong run run.startX none run.members pieces) : layout.IsTiled run :=
  ⟨pieces, along, along.leads.countP_covers⟩

section AreAlong

variable {start : Rat} {previous : Option (LayoutElement Rat)} {members : List (LayoutElement Rat)}
  {pieces : List RailPiece}

theorem areAlong_nil (le : start ≤ run.endX) :
    layout.AreAlong run start previous []
      (RailPiece.gap layout.rungNumber run.wireY start run.endX) where
  leads := List.append_nil (RailPiece.gap ..) ▸ RailPiece.Lead.gap_append le rfl
  isOn := fun _ => RailPiece.isOn_of_mem_gap
  segments_eq := layout.filterMap_gap run.wireY start run.endX
  members_eq := RailPiece.members_gap

/-- An instruction is reached by a wire, and the rail goes on behind it. -/
theorem AreAlong.box {placed : LayoutElement Rat} {content : Instruction}
    (isInstruction : placed.element.draft = .instruction content) (le : start ≤ placed.x)
    (wide : 0 < placed.width)
    (later : layout.AreAlong run placed.right (some placed) members pieces) :
    layout.AreAlong run start previous (placed :: members)
      (RailPiece.gap layout.rungNumber run.wireY start placed.x ++ .box placed :: pieces) where
  leads := RailPiece.Lead.gap_append le ⟨rfl, lt_add_of_pos_right _ wide, later.leads⟩
  isOn := by
    intro piece member
    rcases List.mem_append.mp member with inGap | member
    · exact RailPiece.isOn_of_mem_gap inGap
    rcases List.mem_cons.mp member with rfl | member
    · exact ⟨content, isInstruction⟩
    · exact later.isOn piece member
  segments_eq := by
    have passes : bridgesBranch previous placed = false := by
      rw [bridgesBranch, LayoutElement.kind, Element.kind, isInstruction]
      rfl
    rw [List.filterMap_append, filterMap_gap, List.filterMap_cons_none rfl, later.segments_eq,
      wiresAlong, passes]
    rfl
  members_eq := by
    rw [List.flatMap_append, RailPiece.members_gap, List.flatMap_cons, later.members_eq]
    rfl

/-- A branch is reached by a wire, and there is none between its markers. -/
theorem AreAlong.span {opening closing : LayoutElement Rat} {id : BranchId}
    (isStart : opening.element.draft = .branchStart id)
    (isEnd : closing.element.draft = .branchEnd id) (le : start ≤ opening.x)
    (wide : opening.x < closing.right)
    (later : layout.AreAlong run closing.right (some closing) members pieces) :
    layout.AreAlong run start previous (opening :: closing :: members)
      (RailPiece.gap layout.rungNumber run.wireY start opening.x ++
        .span opening closing :: pieces) where
  leads := RailPiece.Lead.gap_append le ⟨rfl, wide, later.leads⟩
  isOn := by
    intro piece member
    rcases List.mem_append.mp member with inGap | member
    · exact RailPiece.isOn_of_mem_gap inGap
    rcases List.mem_cons.mp member with rfl | member
    · exact ⟨id, isStart, isEnd⟩
    · exact later.isOn piece member
  segments_eq := by
    have passes : bridgesBranch previous opening = false := by
      rw [bridgesBranch, LayoutElement.kind, Element.kind, isStart]
      rfl
    have bridges : bridgesBranch (some opening) closing = true := by
      simp [bridgesBranch, LayoutElement.kind, LayoutElement.branchId, Element.kind,
        Element.branchId, isStart, isEnd, Draft.kind, Draft.markerId?]
    rw [List.filterMap_append, filterMap_gap, List.filterMap_cons_none rfl, later.segments_eq,
      wiresAlong, wiresAlong, passes, bridges]
    rfl
  members_eq := by
    rw [List.flatMap_append, RailPiece.members_gap, List.flatMap_cons, later.members_eq]
    rfl

end AreAlong

end LayoutResult

/-! ### The items of a rail -/

variable {config : LayoutConfig Rat} {input : RungInput Rat} {site : RailSite}

/-- The place from which the next item of a rail is reached. -/
def RailSite.reached (site : RailSite) (last : Option Rat) : Rat := last.getD site.originX

theorem LayoutConfig.KeepsRules.reached_le_itemX (rules : config.KeepsRules) (site : RailSite)
    (last : Option Rat) : site.reached last ≤ config.itemX site.originX last := by
  cases last with
  | none => exact le_add_of_nonneg_right rules.railOffset.le
  | some right => exact rules.le_behind right

/-- The pieces behind an item of a rail, where it reaches as far as its end. -/
theorem RailTree.exists_areAlong (rules : config.KeepsRules) {layout : LayoutResult Rat}
    {run : RailRun Rat} (position : Nat) (last : Option Rat) (previous : Option (LayoutElement Rat))
    (tree : RailTree)
    (reaches : site.reached (tree.lastRight config site.originX last) ≤ run.endX) :
    ∃ pieces, layout.AreAlong run (site.reached last) previous
      (tree.items config input site position last) pieces := by
  have before := rules.reached_le_itemX site last
  cases tree with
  | nil => exact ⟨_, LayoutResult.areAlong_nil reaches⟩
  | instruction content rest =>
      obtain ⟨pieces, later⟩ := rest.exists_areAlong rules (position + 1) _ (some _) reaches
      exact ⟨_, later.box rfl before (rules.element content.category).width⟩
  | branch id first further rest =>
      obtain ⟨pieces, later⟩ := rest.exists_areAlong rules _ (some (branchRight config
        (config.itemX site.originX last) first further)) (some _) reaches
      have wide : config.itemX site.originX last <
          branchRight config (config.itemX site.originX last) first further :=
        (rules.startX_le_branchReach _ first further).trans_lt (lt_of_le_of_lt (rules.le_behind _)
          (lt_add_of_pos_right _ rules.marker.width))
      exact ⟨_, later.span rfl rfl before wide⟩

end LadderDiagram
