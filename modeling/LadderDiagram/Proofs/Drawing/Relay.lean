import LadderDiagram.Proofs.Drawing.LaidOut

/-!
# Laying out a drawing again

One pass from the first rung to the last leaves no rung stale, if the stale ones are
among those that it is told about: a rung that it passes over has not moved.  A
drawing that is laid out is determined by its routine, so a pass over some rungs ends
where a pass over all of them would.
-/

namespace LadderDiagram
namespace Drawing

variable {α : Type} [Scalar α] {drawing : Drawing α}

theorem LaidOutBut.withRelaid {stale : Nat → Prop} (laid : LaidOutBut stale drawing)
    (numbers : List Nat) : LaidOutBut stale { drawing with relaid := numbers } := by
  refine ⟨laid.sound, laid.bands_length, laid.layouts_length, laid.sorted, laid.numbered, ?_⟩
  intro index rung stands fresh
  obtain ⟨layout, draws⟩ := laid.draws index rung stands fresh
  exact ⟨layout, draws.stands, draws.isOf, draws.band, draws.cached, draws.branches⟩

/--
The rungs that may be stale when a pass comes to a rung: those that it is told about from
there on, and the rung itself if the one above has slid it.
-/
def StaleFrom (dirty : Nat → Bool) (index : Nat) (slid : Bool) (other : Nat) : Prop :=
  index ≤ other ∧ dirty other = true ∨ slid = true ∧ other = index

section StaleRungs

variable {dirty : Nat → Bool} {index other : Nat} {slid : Bool}

theorem StaleFrom.le (stale : StaleFrom dirty index slid other) : index ≤ other := by
  rcases stale with ⟨within, _⟩ | ⟨_, rfl⟩
  · exact within
  · exact Nat.le_refl other

theorem staleFrom_self_iff : StaleFrom dirty index slid index ↔ (dirty index || slid) = true := by
  simp [StaleFrom]

/-- Every stale rung but the one that the pass has come to is stale behind it. -/
theorem StaleFrom.next (stale : StaleFrom dirty index slid other) (different : other ≠ index)
    (moved : Bool) : StaleFrom dirty (index + 1) moved other := by
  rcases stale with ⟨within, isDirty⟩ | ⟨_, here⟩
  · exact Or.inl ⟨Nat.lt_of_le_of_ne within different.symm, isDirty⟩
  · exact absurd here different

end StaleRungs

section Passes

variable [ExactScalar α]

/-- From a rung on below which nothing is stale, the pass leaves nothing stale. -/
theorem LaidOutBut.relayFrom {dirty : Nat → Bool} {index : Nat} {slid : Bool} {rungs : List Rung}
    (remaining : drawing.routine.rungs.drop index = rungs)
    (laid : LaidOutBut (StaleFrom dirty index slid) drawing) :
    ∃ numbers after, (Drawing.relayFrom dirty index slid rungs).on drawing = (.ok numbers, after) ∧
      after.config = drawing.config ∧ after.routine = drawing.routine ∧ LaidOut after ∧
      ((∀ other, dirty other = true) → numbers = List.range' index rungs.length) := by
  induction rungs generalizing index slid drawing with
  | nil =>
      refine ⟨[], drawing, rfl, rfl, rfl, ?_, fun _ => rfl⟩
      have beyond : drawing.routine.size ≤ index := List.drop_eq_nil_iff.mp remaining
      apply laid.mono
      intro other bounded stale
      exact absurd (Nat.lt_of_lt_of_le bounded beyond) (Nat.not_lt_of_le stale.le)
  | cons rung rest ih =>
      have stands : drawing.routine.rungs[index]? = some rung :=
        getElem?_of_drop_eq_cons remaining
      have restRemaining : drawing.routine.rungs.drop (index + 1) = rest :=
        drop_succ_of_drop_eq_cons remaining
      unfold Drawing.relayFrom
      by_cases stale : dirty index || slid
      · rw [if_pos stale]
        obtain ⟨moved, between, relays, sameConfig, sameRoutine, laidBetween⟩ :=
          laid.relayRung stands fun other before isStale => Nat.not_lt_of_le isStale.le before
        have laidNext : LaidOutBut (StaleFrom dirty (index + 1) moved) between := by
          apply laidBetween.mono
          rintro other _ (⟨isStale, different⟩ | slides)
          · exact isStale.next different moved
          · exact Or.inr slides
        rw [← sameRoutine] at restRemaining
        obtain ⟨numbers, after, relaysRest, restConfig, restRoutine, laidOut, all⟩ :=
          ih restRemaining laidNext
        refine ⟨index :: numbers, after, ?_, restConfig.trans sameConfig,
          restRoutine.trans sameRoutine, laidOut, ?_⟩
        · rw [Action.on_bind_of_ok relays, Action.on_bind_of_ok relaysRest]
          rfl
        · intro everywhere
          rw [all everywhere, List.length_cons, List.range'_succ]
      · rw [if_neg stale]
        -- The rung is passed over, so it is not stale and has not moved.
        have laidNext : LaidOutBut (StaleFrom dirty (index + 1) false) drawing := by
          apply laid.mono
          intro other _ isStale
          apply isStale.next
          rintro rfl
          exact stale (staleFrom_self_iff.mp isStale)
        obtain ⟨numbers, after, relaysRest, restConfig, restRoutine, laidOut, _⟩ :=
          ih restRemaining laidNext
        refine ⟨numbers, after, relaysRest, restConfig, restRoutine, laidOut, ?_⟩
        intro everywhere
        exact absurd (Bool.or_eq_true_iff.mpr (Or.inl (everywhere index))) stale

/-- A pass that is told about all stale rungs lays the drawing out. -/
theorem LaidOutBut.relay {dirty : Nat → Bool}
    (laid : LaidOutBut (fun index => dirty index = true) drawing) :
    ∃ after, (Drawing.relay dirty).on drawing = (.ok (), after) ∧
      after.config = drawing.config ∧ after.routine = drawing.routine ∧ LaidOut after ∧
      ((∀ other, dirty other = true) → after.relaid = List.range drawing.routine.size) := by
  have laidFromStart : LaidOutBut (StaleFrom dirty 0 false) drawing :=
    laid.mono fun other _ isDirty => Or.inl ⟨Nat.zero_le other, isDirty⟩
  obtain ⟨numbers, after, relays, sameConfig, sameRoutine, laidOut, all⟩ :=
    laidFromStart.relayFrom (List.drop_zero)
  refine ⟨{ after with relaid := numbers }, ?_, sameConfig, sameRoutine,
    laidOut.withRelaid numbers, ?_⟩
  · unfold Drawing.relay
    rw [Action.on_bind, Action.on_modify, List.take_of_length_le laid.layouts_length]
    dsimp only
    rw [Action.on_bind, Action.on_get]
    dsimp only
    rw [Action.on_bind_of_ok relays]
    rfl
  · intro everywhere
    rw [List.range_eq_range']
    exact all everywhere

/-- Whatever a drawing keeps, all of it is laid out anew. -/
theorem exists_relayAll (drawing : Drawing α) (sound : drawing.routine.IsSound)
    (bands_length : drawing.bands.length = drawing.routine.size) :
    ∃ after, relayAll.on drawing = (.ok (), after) ∧
      after.config = drawing.config ∧ after.routine = drawing.routine ∧ LaidOut after ∧
      after.relaid = List.range drawing.routine.size := by
  have nothing : LaidOutBut (fun _ => true = true)
      { drawing with arena := .empty, layouts := [] } := by
    refine ⟨sound, bands_length, Nat.zero_le _, Arena.isSorted_empty, ?_, ?_⟩
    · exact fun record member => absurd member List.not_mem_nil
    · exact fun index rung _ fresh => absurd rfl fresh
  obtain ⟨after, relays, sameConfig, sameRoutine, laidOut, all⟩ := nothing.relay
  refine ⟨after, ?_, sameConfig, sameRoutine, laidOut, all fun _ => rfl⟩
  unfold relayAll
  rw [Action.on_bind, Action.on_modify]
  exact relays

end Passes

/-! ### What a routine determines -/

/--
The height at which a rung begins when each rung before it takes the height of its
layout and the gap behind it.
-/
def rungTop (config : LayoutConfig α) (layouts : List (LayoutResult α)) : Nat → α
  | 0 => config.routineOriginY
  | before + 1 =>
      match layouts[before]? with
      | some layout => rungTop config layouts before + layout.height + config.rungGap
      | none => config.routineOriginY

namespace LaidOut

variable {other : Drawing α}

theorem exists_draws (laid : LaidOut drawing) {index : Nat}
    (bounded : index < drawing.routine.size) :
    ∃ rung layout, drawing.Draws index rung layout := by
  obtain ⟨layout, draws⟩ :=
    laid.draws index _ (List.getElem?_eq_getElem bounded) not_false
  exact ⟨_, layout, draws⟩

theorem length_layouts (laid : LaidOut drawing) :
    drawing.layouts.length = drawing.routine.size := by
  apply Nat.le_antisymm laid.layouts_length
  apply Nat.le_of_not_lt
  intro short
  obtain ⟨rung, layout, draws⟩ := laid.exists_draws short
  exact Nat.lt_irrefl _ (List.getElem?_eq_some_iff.mp draws.cached).1

/-- Each layout is that of the rung with its number. -/
theorem exists_draws_of_cached (laid : LaidOut drawing) {index : Nat} {layout : LayoutResult α}
    (cached : drawing.layouts[index]? = some layout) :
    ∃ rung, drawing.Draws index rung layout := by
  obtain ⟨bounded, _⟩ := List.getElem?_eq_some_iff.mp cached
  obtain ⟨rung, own, draws⟩ := laid.exists_draws (laid.length_layouts ▸ bounded)
  obtain rfl := Option.some.inj (draws.cached.symm.trans cached)
  exact ⟨rung, draws⟩

theorem bandStart_eq (laid : LaidOut drawing) {index : Nat}
    (within : index ≤ drawing.routine.size) :
    drawing.bandStart index = rungTop drawing.config drawing.layouts index := by
  induction index with
  | zero => rfl
  | succ before ih =>
      obtain ⟨rung, layout, draws⟩ := laid.exists_draws within
      rw [draws.bandStart_succ, ih (Nat.le_of_succ_le within), rungTop, draws.cached]

variable (laid : LaidOut drawing) (otherLaid : LaidOut other)
  (sameConfig : other.config = drawing.config) (sameRoutine : other.routine = drawing.routine)

include laid otherLaid sameConfig sameRoutine

/-- A rung that begins at one height in two drawings of its routine has one layout. -/
theorem draws_both_of_sameStart {index : Nat} (bounded : index < drawing.routine.size)
    (sameStart : other.bandStart index = drawing.bandStart index) :
    ∃ rung layout, drawing.Draws index rung layout ∧ other.Draws index rung layout := by
  obtain ⟨rung, layout, draws⟩ := laid.exists_draws bounded
  have standsToo : other.routine.rungs[index]? = some rung := sameRoutine ▸ draws.stands
  obtain ⟨own, drawsToo⟩ := otherLaid.draws index rung standsToo not_false
  have isOf := drawsToo.isOf
  rw [sameConfig, sameStart] at isOf
  obtain rfl := draws.isOf.unique isOf
  exact ⟨rung, layout, draws, drawsToo⟩

theorem sameStart {index : Nat} (within : index ≤ drawing.routine.size) :
    other.bandStart index = drawing.bandStart index := by
  induction index with
  | zero => rw [bandStart, bandStart, sameConfig]
  | succ before ih =>
      have start := ih (Nat.le_of_succ_le within)
      obtain ⟨rung, layout, draws, drawsToo⟩ :=
        laid.draws_both_of_sameStart otherLaid sameConfig sameRoutine within start
      rw [draws.bandStart_succ, drawsToo.bandStart_succ, sameConfig, start]

/-- Two drawings of one routine that are laid out differ in their last report only. -/
theorem unique : other = { drawing with relaid := other.relaid } := by
  have both (index : Nat) (bounded : index < drawing.routine.size) :
      ∃ rung layout, drawing.Draws index rung layout ∧ other.Draws index rung layout :=
    laid.draws_both_of_sameStart otherLaid sameConfig sameRoutine bounded
      (laid.sameStart otherLaid sameConfig sameRoutine (Nat.le_of_lt bounded))
  have sameSize : other.routine.size = drawing.routine.size := by rw [sameRoutine]
  have bands : other.bands = drawing.bands := by
    apply List.ext_getElem?
    intro index
    by_cases bounded : index < drawing.routine.size
    · obtain ⟨rung, layout, draws, drawsToo⟩ := both index bounded
      rw [draws.band, drawsToo.band,
        laid.sameStart otherLaid sameConfig sameRoutine (Nat.le_of_lt bounded)]
    · rw [List.getElem?_eq_none (by rw [otherLaid.bands_length]; omega),
        List.getElem?_eq_none (by rw [laid.bands_length]; omega)]
  have layouts : other.layouts = drawing.layouts := by
    apply List.ext_getElem?
    intro index
    by_cases bounded : index < drawing.routine.size
    · obtain ⟨rung, layout, draws, drawsToo⟩ := both index bounded
      rw [draws.cached, drawsToo.cached]
    · rw [List.getElem?_eq_none (by rw [otherLaid.length_layouts]; omega),
        List.getElem?_eq_none (by rw [laid.length_layouts]; omega)]
  have arena : other.arena = drawing.arena := by
    apply otherLaid.sorted.ext laid.sorted
    intro record
    constructor
    · intro member
      obtain ⟨index, bounded, named⟩ := otherLaid.numbered record member
      obtain ⟨rung, layout, draws, drawsToo⟩ := both index (sameSize ▸ bounded)
      exact ((draws.branches record).mp ((drawsToo.branches record).mpr ⟨member, named⟩)).1
    · intro member
      obtain ⟨index, bounded, named⟩ := laid.numbered record member
      obtain ⟨rung, layout, draws, drawsToo⟩ := both index bounded
      exact ((drawsToo.branches record).mp ((draws.branches record).mpr ⟨member, named⟩)).1
  cases other
  cases sameConfig
  cases sameRoutine
  cases bands
  cases layouts
  cases arena
  rfl

end LaidOut
end Drawing
end LadderDiagram
