import LadderDiagram.Drawing.Basic
import LadderDiagram.Proofs.Layout.Arena
import LadderDiagram.Proofs.Layout.Engine
import LadderDiagram.Proofs.Routine.Sound

/-!
# Drawings that are laid out

A drawing keeps four records of its rungs: their bands, their layouts, the branches of
all of them, and the routine itself.  They agree at a rung when its layout is the one
that the engine gives it under the rung above.  While a drawing is laid out again
some rungs are stale; laying out one of them makes it agree, and it makes at most the next
one stale, namely when its band has moved.
-/

namespace LadderDiagram

/--
Numbers that are equal once they are found equal.  This holds of exact numbers, and of
doubles as long as the two zeros are not told apart.
-/
class ExactScalar (α : Type) [Scalar α] : Prop where
  eq_of_eq {first second : α} : Scalar.eq first second = true → first = second

instance : ExactScalar Rat := ⟨of_decide_eq_true⟩

namespace Drawing

variable {α : Type} [Scalar α]

/-- Everything that a drawing keeps about a rung is what the engine gives it where it stands. -/
structure Draws (drawing : Drawing α) (index : Nat) (rung : Rung) (layout : LayoutResult α) :
    Prop where
  stands : drawing.routine.rungs[index]? = some rung
  isOf : layout.IsOf drawing.config (rungInput index (drawing.bandStart index) rung)
  band : drawing.bands[index]? = some (some ⟨drawing.bandStart index, layout.height⟩)
  cached : drawing.layouts[index]? = some layout
  branches : ∀ record, record ∈ layout.branches ↔
    record ∈ drawing.arena.records ∧ record.rungNumber = .ofNat index

/-- A drawing of a sound routine that is laid out but for some rungs, which may hold anything. -/
structure LaidOutBut (stale : Nat → Prop) (drawing : Drawing α) : Prop where
  sound : drawing.routine.IsSound
  bands_length : drawing.bands.length = drawing.routine.size
  layouts_length : drawing.layouts.length ≤ drawing.routine.size
  sorted : drawing.arena.IsSorted
  numbered : ∀ record ∈ drawing.arena.records,
    ∃ index < drawing.routine.size, record.rungNumber = .ofNat index
  draws : ∀ index rung, drawing.routine.rungs[index]? = some rung → ¬ stale index →
    ∃ layout, drawing.Draws index rung layout

/-- A drawing of a sound routine in which every rung is laid out. -/
def LaidOut (drawing : Drawing α) : Prop := LaidOutBut (fun _ => False) drawing

variable {drawing : Drawing α} {stale : Nat → Prop}

/-- The rung below one that agrees begins under its layout. -/
theorem Draws.bandStart_succ {index : Nat} {rung : Rung} {layout : LayoutResult α}
    (draws : drawing.Draws index rung layout) :
    drawing.bandStart (index + 1) =
      drawing.bandStart index + layout.height + drawing.config.rungGap := by
  simp only [bandStart, draws.band]

theorem Draws.mem_forRung {index : Nat} {rung : Rung} {layout : LayoutResult α}
    (draws : drawing.Draws index rung layout) {record : Branch α} :
    record ∈ drawing.arena.forRung (.ofNat index) ↔ record ∈ layout.branches := by
  rw [draws.branches, Arena.forRung, List.mem_filter, beq_iff_eq]

theorem LaidOutBut.mono (laid : LaidOutBut stale drawing) {more : Nat → Prop}
    (includes : ∀ index < drawing.routine.size, stale index → more index) :
    LaidOutBut more drawing := by
  refine { laid with draws := ?_ }
  intro index rung stands fresh
  obtain ⟨bounded, _⟩ := List.getElem?_eq_some_iff.mp stands
  exact laid.draws index rung stands fun isStale => fresh (includes index bounded isStale)

/-! ### Putting one layout in -/

omit [Scalar α] in
theorem getElem?_putAt_self {β : Type} {items : List β} {index : Nat}
    (within : index ≤ items.length) (item : β) : (putAt items index item)[index]? = some item := by
  unfold putAt
  by_cases inside : index < items.length
  · rw [if_pos inside, List.getElem?_set_self inside]
  · obtain rfl : index = items.length := by omega
    rw [if_neg inside, List.getElem?_concat_length]

omit [Scalar α] in
theorem getElem?_putAt_of_ne {β : Type} {items : List β} {index other : Nat} {item found : β}
    (different : other ≠ index) (stands : items[other]? = some found) :
    (putAt items index item)[other]? = some found := by
  unfold putAt
  by_cases inside : index < items.length
  · rw [if_pos inside, List.getElem?_set_ne different.symm]
    exact stands
  · rw [if_neg inside,
      List.getElem?_append_left (List.getElem?_eq_some_iff.mp stands).1]
    exact stands

omit [Scalar α] in
theorem length_putAt_le {β : Type} {items : List β} {index bound : Nat} (item : β)
    (fits : items.length ≤ bound) (within : index < bound) :
    (putAt items index item).length ≤ bound := by
  unfold putAt
  by_cases inside : index < items.length
  · rw [if_pos inside, List.length_set]
    exact fits
  · rw [if_neg inside, List.length_append, List.length_singleton]
    omega

/-- The drawing with a layout of one rung in the place of what it kept about that rung. -/
def withLayout (drawing : Drawing α) (index : Nat) (layout : LayoutResult α) : Drawing α :=
  { drawing with
    bands := drawing.bands.set index (some ⟨drawing.bandStart index, layout.height⟩)
    layouts := putAt drawing.layouts index layout
    arena := drawing.arena.replaceRung (.ofNat index) layout.branches }

variable {index : Nat} {rung : Rung} {layout : LayoutResult α}

/-- Only the rung below a band begins where the band says. -/
theorem bandStart_withLayout_of_ne {other : Nat} (different : other ≠ index + 1) :
    (drawing.withLayout index layout).bandStart other = drawing.bandStart other := by
  cases other with
  | zero => rfl
  | succ before =>
      have apart : index ≠ before := by omega
      simp only [bandStart, withLayout, List.getElem?_set_ne apart]

/-- A rung whose band has not moved leaves all rungs where they are. -/
theorem bandStart_withLayout_of_not_hasMoved [ExactScalar α]
    (bounded : index < drawing.bands.length)
    (stays : hasMoved drawing.bands[index]?.join (drawing.bandStart index) layout.height = false)
    (other : Nat) :
    (drawing.withLayout index layout).bandStart other = drawing.bandStart other := by
  have same : drawing.bands[index]? =
      some (some ⟨drawing.bandStart index, layout.height⟩) := by
    rw [List.getElem?_eq_getElem bounded, Option.join_some] at stays
    rw [List.getElem?_eq_getElem bounded]
    cases before : drawing.bands[index] with
    | none =>
        rw [before] at stays
        cases stays
    | some band =>
        simp only [before, hasMoved, Option.any_some, Bool.not_eq_false', Bool.and_eq_true] at stays
        rw [ExactScalar.eq_of_eq stays.1, ExactScalar.eq_of_eq stays.2]
  have unchanged : (drawing.withLayout index layout).bands = drawing.bands := set_of_getElem? same
  cases other with
  | zero => rfl
  | succ before =>
      rw [bandStart, bandStart, unchanged]
      rfl

namespace LaidOutBut

variable (laid : LaidOutBut stale drawing) (stands : drawing.routine.rungs[index]? = some rung)
  (isOf : layout.IsOf drawing.config (rungInput index (drawing.bandStart index) rung))

include laid stands isOf

/-- The records of a new layout replace those of its rung, and no others. -/
theorem withLayout_arena :
    (drawing.withLayout index layout).arena.IsSorted ∧
      ∀ record, record ∈ (drawing.withLayout index layout).arena.records ↔
        record ∈ layout.branches ∨ record ∈ drawing.arena.records ∧
          record.rungNumber ≠ .ofNat index ∧ record.id ∉ rung.handles := by
  have ids_eq : layout.branches.map (·.id) = rung.handles := isOf.ids_eq
  have counted : ∀ branch ∈ layout.branches, ∃ value, branch.id = .ofNat value := by
    intro branch member
    have opened : branch.id ∈ rung.handles := ids_eq ▸ List.mem_map_of_mem member
    obtain ⟨value, _, _, named⟩ :=
      laid.sound.given _ (Routine.mem_handles_of_getElem? stands opened)
    exact ⟨value, named⟩
  rw [← ids_eq]
  exact laid.sorted.replaceRung counted
    (ids_eq ▸ (laid.sound.rungAt stands).nodup_handles) (.ofNat index)

/-- The rung that a layout was made for agrees with it. -/
theorem draws_withLayout_self (above : index ≤ drawing.layouts.length) :
    (drawing.withLayout index layout).Draws index rung layout := by
  obtain ⟨bounded, _⟩ := List.getElem?_eq_some_iff.mp stands
  have inBands : index < drawing.bands.length := laid.bands_length.symm ▸ bounded
  have sameStart : (drawing.withLayout index layout).bandStart index = drawing.bandStart index :=
    bandStart_withLayout_of_ne (by omega)
  refine ⟨stands, ?_, ?_, getElem?_putAt_self above layout, ?_⟩
  · rw [sameStart]
    exact isOf
  · rw [sameStart]
    exact List.getElem?_set_self inBands
  · intro record
    rw [(laid.withLayout_arena stands isOf).2 record]
    constructor
    · exact fun member => ⟨Or.inl member, isOf.numbered record member⟩
    · rintro ⟨member | ⟨_, different, _⟩, named⟩
      · exact member
      · exact absurd named different

/-- Another rung goes on to agree if it still begins where it began. -/
theorem draws_withLayout_of_ne {other : Nat} {another : Rung} {own : LayoutResult α}
    (different : other ≠ index) (draws : drawing.Draws other another own)
    (sameStart : (drawing.withLayout index layout).bandStart other = drawing.bandStart other) :
    (drawing.withLayout index layout).Draws other another own := by
  refine ⟨draws.stands, ?_, ?_, getElem?_putAt_of_ne different draws.cached, ?_⟩
  · rw [sameStart]
    exact draws.isOf
  · rw [sameStart]
    exact (List.getElem?_set_ne different.symm).trans draws.band
  · intro record
    rw [(laid.withLayout_arena stands isOf).2 record, draws.branches record]
    constructor
    · rintro ⟨member, named⟩
      have opened : record.id ∈ another.handles := by
        have ids_eq : own.branches.map (·.id) = another.handles := draws.isOf.ids_eq
        rw [← ids_eq]
        exact List.mem_map_of_mem ((draws.branches record).mpr ⟨member, named⟩)
      refine ⟨Or.inr ⟨member, ?_, ?_⟩, named⟩
      · rw [named, ne_eq, Address.ofNat_inj]
        exact different
      · exact laid.sound.apart draws.stands different.symm stands opened
    · rintro ⟨member | ⟨member, _⟩, named⟩
      · have own := isOf.numbered record member
        exact absurd (Address.ofNat_inj.mp (named.symm.trans own)) different
      · exact ⟨member, named⟩

end LaidOutBut

/-! ### Laying out one rung -/

variable [ExactScalar α]

/--
Laying out a rung below which nothing is stale makes it agree.  If its band has
moved, the next rung is stale after that.
-/
theorem LaidOutBut.relayRung (laid : LaidOutBut stale drawing)
    (stands : drawing.routine.rungs[index]? = some rung) (above : ∀ other < index, ¬ stale other) :
    ∃ moved after, (Drawing.relayRung index rung).on drawing = (.ok moved, after) ∧
      after.config = drawing.config ∧ after.routine = drawing.routine ∧
      LaidOutBut
        (fun other => stale other ∧ other ≠ index ∨ moved = true ∧ other = index + 1) after := by
  obtain ⟨bounded, _⟩ := List.getElem?_eq_some_iff.mp stands
  obtain ⟨layout, isOf⟩ := exists_isOf drawing.config
    (rungInput index (drawing.bandStart index) rung) (laid.sound.rungAt stands).wellNested
  obtain ⟨sorted, records⟩ := laid.withLayout_arena stands isOf
  have cachedAbove : index ≤ drawing.layouts.length := by
    cases index with
    | zero => exact Nat.zero_le _
    | succ before =>
        have exists_rung := List.getElem?_eq_getElem (Nat.lt_of_succ_lt bounded)
        obtain ⟨own, draws⟩ := laid.draws before _ exists_rung (above before (Nat.lt_succ_self _))
        exact (List.getElem?_eq_some_iff.mp draws.cached).1
  refine ⟨hasMoved drawing.bands[index]?.join (drawing.bandStart index) layout.height,
    drawing.withLayout index layout, ?_, rfl, rfl, ?_⟩
  · unfold Drawing.relayRung
    rw [Action.on_bind, Action.on_get]
    dsimp only
    rw [Action.on_bind, Action.on_settled, isOf.laidOut]
    rfl
  refine ⟨laid.sound, ?_, length_putAt_le layout laid.layouts_length bounded, sorted, ?_, ?_⟩
  · exact List.length_set.trans laid.bands_length
  · intro record member
    rcases (records record).mp member with new | ⟨old, _⟩
    · exact ⟨index, bounded, isOf.numbered record new⟩
    · exact laid.numbered record old
  · intro other another standsToo fresh
    by_cases same : other = index
    · subst same
      obtain rfl : rung = another := Option.some.inj (stands.symm.trans standsToo)
      exact ⟨layout, laid.draws_withLayout_self stands isOf cachedAbove⟩
    · obtain ⟨own, draws⟩ :=
        laid.draws other another standsToo fun isStale => fresh (Or.inl ⟨isStale, same⟩)
      refine ⟨own, laid.draws_withLayout_of_ne stands isOf same draws ?_⟩
      by_cases next : other = index + 1
      · have inBands : index < drawing.bands.length := laid.bands_length.symm ▸ bounded
        apply bandStart_withLayout_of_not_hasMoved inBands
        exact Bool.eq_false_iff.mpr fun moved => fresh (Or.inr ⟨moved, next⟩)
      · exact bandStart_withLayout_of_ne next

end Drawing
end LadderDiagram
