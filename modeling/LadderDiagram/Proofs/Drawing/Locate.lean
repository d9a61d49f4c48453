import LadderDiagram.Proofs.Drawing.Bands
import LadderDiagram.Proofs.Layout.Hits

/-!
# Points on a drawing

The element under a point is the one whose rectangle contains it, since there is no other
one.  The rail under a point of an instruction, a start marker or an end marker is the rail
on which it stands.
-/

namespace LadderDiagram

/-! ### The innermost box -/

namespace Branch

/-- The box that is chosen among some is one of them, and none of them is smaller. -/
theorem exists_foldl_smaller (records : List (Branch Rat)) (best : Branch Rat) :
    ∃ found ∈ best :: records, records.foldl smaller (some best) = some found ∧
      ∀ other ∈ best :: records, found.area ≤ other.area := by
  induction records generalizing best with
  | nil =>
      refine ⟨best, List.mem_cons_self, rfl, fun other member => ?_⟩
      rw [List.mem_singleton.mp member]
  | cons next rest ih =>
      by_cases below : next.area ≤ best.area
      · obtain ⟨found, member, chosen, least⟩ := ih next
        refine ⟨found, List.mem_cons_of_mem _ member, ?_, fun other isOther => ?_⟩
        · have atMost : Scalar.le next.area best.area = true := decide_eq_true below
          rw [List.foldl_cons, smaller, if_pos atMost]
          exact chosen
        · rcases List.mem_cons.mp isOther with rfl | isOther
          · exact (least next List.mem_cons_self).trans below
          · exact least other isOther
      · obtain ⟨found, member, chosen, least⟩ := ih best
        have best_le := least best List.mem_cons_self
        refine ⟨found, ?_, ?_, fun other isOther => ?_⟩
        · rcases List.mem_cons.mp member with rfl | member
          · exact List.mem_cons_self
          · exact List.mem_cons_of_mem _ (List.mem_cons_of_mem _ member)
        · have greater : ¬ Scalar.le next.area best.area = true := fun le =>
            below (of_decide_eq_true le)
          rw [List.foldl_cons, smaller, if_neg greater]
          exact chosen
        · rcases List.mem_cons.mp isOther with rfl | isOther
          · exact best_le
          rcases List.mem_cons.mp isOther with rfl | isOther
          · exact best_le.trans (not_le.mp below).le
          · exact least other (List.mem_cons_of_mem _ isOther)

end Branch

namespace Drawing

variable {drawing : Drawing Rat} {number : Address} {x y : Rat}

/-- The innermost branch at a point has a box that contains it, and none of these is smaller. -/
theorem innermost_cases (drawing : Drawing Rat) (number : Address) (x y : Rat) :
    drawing.innermost number x y = none ∧
        (∀ other ∈ drawing.arena.forRung number, ¬ other.contains x y = true) ∨
      ∃ found ∈ drawing.arena.forRung number, drawing.innermost number x y = some found ∧
        found.contains x y = true ∧
        ∀ other ∈ drawing.arena.forRung number, other.contains x y = true →
          found.area ≤ other.area := by
  unfold innermost
  cases hits : (drawing.arena.forRung number).filter (·.contains x y) with
  | nil =>
      exact Or.inl ⟨rfl, fun other member contains =>
        List.filter_eq_nil_iff.mp hits other member contains⟩
  | cons first rest =>
      obtain ⟨found, member, chosen, least⟩ := Branch.exists_foldl_smaller rest first
      rw [← hits] at member least
      obtain ⟨inRung, contains⟩ := List.mem_filter.mp member
      exact Or.inr ⟨found, inRung, chosen, contains, fun other inRung contains =>
        least other (List.mem_filter.mpr ⟨inRung, contains⟩)⟩

variable {index : Nat} {rung : Rung} {layout : LayoutResult Rat}

theorem Draws.innermost_eq_some (draws : drawing.Draws index rung layout) {record : Branch Rat}
    (smallest : Branch.IsSmallest layout.branches x y record) :
    drawing.innermost (.ofNat index) x y = some record := by
  have inRung := draws.mem_forRung.mpr smallest.member
  rcases drawing.innermost_cases (.ofNat index) x y with
    ⟨_, none⟩ | ⟨found, member, chosen, contains, least⟩
  · exact absurd smallest.contains (none record inRung)
  · rcases smallest.least found (draws.mem_forRung.mp member) contains with same | greater
    · rw [chosen, same]
    · exact absurd (least record inRung smallest.contains) (not_le.mpr greater)

theorem Draws.innermost_eq_none (draws : drawing.Draws index rung layout)
    (none : ∀ other ∈ layout.branches, ¬ other.contains x y = true) :
    drawing.innermost (.ofNat index) x y = Option.none := by
  rcases drawing.innermost_cases (.ofNat index) x y with
    ⟨chosen, _⟩ | ⟨found, member, _, contains, _⟩
  · exact chosen
  · exact absurd contains (none found (draws.mem_forRung.mp member))

/-! ### Points of a rung -/

section LaidOut

variable (laid : drawing.LaidOut) (rules : drawing.config.KeepsRules)
  (draws : drawing.Draws index rung layout)

include laid rules draws

theorem Draws.rungUnder_eq (band : layout.y ≤ y ∧ y < layout.y + layout.height) :
    drawing.rungUnder y = some layout := by
  have member : layout ∈ drawing.layouts := List.mem_of_getElem? draws.cached
  unfold rungUnder
  cases finds : drawing.layouts.find? fun own => Scalar.inside own.y y (own.y + own.height) with
  | none =>
      have misses := List.find?_eq_none.mp finds layout member
      exact absurd (Scalar.inside_iff.mpr band) misses
  | some found =>
      have hit := List.find?_some finds
      have otherBand := Scalar.inside_iff.mp hit
      obtain ⟨other, cached⟩ := List.mem_iff_getElem?.mp (List.mem_of_find?_eq_some finds)
      obtain ⟨another, otherDraws⟩ := laid.exists_draws_of_cached cached
      obtain rfl := laid.index_eq_of_band rules draws otherDraws band otherBand
      exact otherDraws.cached.symm.trans draws.cached

theorem Draws.band_of_contains {placed : LayoutElement Rat} (member : placed ∈ layout.elements)
    (inside : placed.contains x y = true) : layout.y ≤ y ∧ y < layout.y + layout.height := by
  obtain ⟨tree, _, rfl⟩ := draws.exists_tree laid rules
  exact tree.band_of_contains rules (Nat.cast_nonneg rung.commentLines) member inside

/-- No point is in two elements of a rung. -/
theorem Draws.place_eq_of_contains {place other : Nat} {placed otherPlaced : LayoutElement Rat}
    (stands : layout.elements[place]? = some placed) (inside : placed.contains x y = true)
    (otherStands : layout.elements[other]? = some otherPlaced)
    (otherInside : otherPlaced.contains x y = true) : other = place := by
  obtain ⟨tree, _, rfl⟩ := draws.exists_tree laid rules
  have pairwise : (tree.layout drawing.config (rungInput index (drawing.bandStart index)
      rung)).elements.Pairwise LayoutElement.Apart := tree.placed_apart rules _ 0 none
  have apart := List.pairwise_iff_getElem.mp pairwise
  obtain ⟨bounded, rfl⟩ := List.getElem?_eq_some_iff.mp stands
  obtain ⟨otherBounded, rfl⟩ := List.getElem?_eq_some_iff.mp otherStands
  rcases Nat.lt_trichotomy other place with before | same | behind
  · exact absurd inside (apart other place otherBounded bounded before x y otherInside)
  · exact same
  · exact absurd otherInside (apart place other bounded otherBounded behind x y inside)

/-- The element under a point is the one that contains it. -/
theorem Draws.elementAt_eq {place : Nat} {placed : LayoutElement Rat}
    (stands : layout.elements[place]? = some placed) (inside : placed.contains x y = true) :
    drawing.elementAt x y = some placed := by
  have member := List.mem_of_getElem? stands
  have only : ∀ other ∈ layout.elements.filter (·.contains x y), other = placed := by
    intro other hit
    obtain ⟨otherMember, otherInside⟩ := List.mem_filter.mp hit
    obtain ⟨otherPlace, otherStands⟩ := List.mem_iff_getElem?.mp otherMember
    obtain rfl := draws.place_eq_of_contains laid rules stands inside otherStands otherInside
    exact Option.some.inj (otherStands.symm.trans stands)
  unfold elementAt
  rw [draws.rungUnder_eq laid rules (draws.band_of_contains laid rules member inside),
    Option.bind_some]
  dsimp only
  -- The search prefers instructions among the hits, but there is only one hit.
  cases hits : layout.elements.filter (·.contains x y) with
  | nil => exact absurd inside (List.filter_eq_nil_iff.mp hits placed member)
  | cons first rest =>
      rw [hits] at only
      cases finds : (first :: rest).find? (·.kind == .instruction) with
      | none => exact congrArg some (only first List.mem_cons_self)
      | some found => exact congrArg some (only found (List.mem_of_find?_eq_some finds))

/-- The rail under a point of an instruction, a start marker or an end marker is its own. -/
theorem Draws.locate_eq {placed : LayoutElement Rat} (member : placed ∈ layout.elements)
    (inside : placed.contains x y = true) (isWhole : IsWhole y)
    (stays : placed.kind ≠ .branchNext) :
    drawing.locate x y =
      some ⟨.ofNat index, placed.element.branchLevel, placed.railId⟩ := by
  have under := draws.rungUnder_eq laid rules (draws.band_of_contains laid rules member inside)
  have bounded := (List.getElem?_eq_some_iff.mp draws.stands).1
  have start := laid.isWhole_bandStart rules bounded.le
  unfold locate
  rw [under, Option.map_some, (draws.y_eq laid rules).2]
  obtain ⟨tree, _, same⟩ := draws.exists_tree laid rules
  have snaps (row : Nat) := isWhole.le_sub_one
    ((rungInput index (drawing.bandStart index) rung).isWhole_rowY rules start
      (IsWhole.natCast rung.commentLines) row)
  rw [same] at member
  rcases tree.isOn_or_isBoxedBy rules snaps (.main drawing.config) 0 none stays inside member with
    ⟨railId, level, above⟩ | ⟨_, record, boxed⟩
  · have chosen : drawing.innermost (.ofNat index) x y = none := by
      apply draws.innermost_eq_none
      rw [same]
      exact tree.not_contains_of_above rules above
    rw [chosen, railId, level]
    rfl
  · have chosen : drawing.innermost (.ofNat index) x y = some record := by
      apply draws.innermost_eq_some
      rw [same]
      exact boxed.toIsSmallest
    rw [chosen, boxed.railId, boxed.level]

end LaidOut

end Drawing
end LadderDiagram
