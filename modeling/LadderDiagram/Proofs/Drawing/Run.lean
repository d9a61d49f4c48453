import LadderDiagram.Proofs.Drawing.Edit
import LadderDiagram.Proofs.Routine.Run

/-!
# Runs of edits of a drawing

After any run of edits, some of which may have failed, everything that a drawing keeps
is what laying out all rungs anew would give.  Since the layouts are determined from
the first rung downwards, it is enough that every edit leaves the drawing laid out.
-/

namespace LadderDiagram
namespace Drawing

variable {α : Type} [Scalar α]

/-- The drawing after a run of edits; an edit that fails leaves what it has done. -/
def run (drawing : Drawing α) (edits : List Edit) : Drawing α :=
  edits.foldl (fun drawing edit => (drawing.apply edit).2) drawing

variable [ExactScalar α]

/-- A sound routine is laid out as a new drawing. -/
theorem exists_ofRoutine (config : LayoutConfig α) {routine : Routine} (sound : routine.IsSound) :
    ∃ drawing, ofRoutine config routine = (.ok (), drawing) ∧ LaidOut drawing ∧
      drawing.config = config ∧ drawing.routine = routine ∧
      drawing.relaid = List.range routine.size := by
  obtain ⟨after, relays, sameConfig, sameRoutine, laid, relaid⟩ :=
    exists_relayAll (blank config routine) sound (List.length_map _)
  exact ⟨after, relays, laid, sameConfig, sameRoutine, relaid⟩

theorem LaidOut.run {drawing : Drawing α} (laid : LaidOut drawing) (edits : List Edit) :
    LaidOut (drawing.run edits) ∧ (drawing.run edits).config = drawing.config := by
  induction edits generalizing drawing with
  | nil => exact ⟨laid, rfl⟩
  | cons edit rest ih =>
      have step : LaidOut (drawing.apply edit).2 ∧
          (drawing.apply edit).2.config = drawing.config := by
        unfold Drawing.apply
        rcases act_keepsLaidOut edit drawing laid with
          ⟨error, after, _, fails, laidAfter, sameConfig, _⟩ |
            ⟨answer, after, succeeds, laidAfter, sameConfig⟩
        · rw [fails]
          exact ⟨laidAfter, sameConfig⟩
        · rw [succeeds]
          exact ⟨laidAfter, sameConfig⟩
      obtain ⟨laidFinal, finalConfig⟩ := ih step.1
      exact ⟨laidFinal, finalConfig.trans step.2⟩

/-- Whatever edits are run on the drawing of a routine, it is laid out as it is configured. -/
theorem laidOut_of_isRun {config : LayoutConfig α} {routine : Routine}
    (reachable : routine.Reachable) {edits : List Edit} {drawing : Drawing α}
    (isRun : drawing = (ofRoutine config routine).2.run edits) :
    drawing.LaidOut ∧ drawing.config = config := by
  obtain ⟨start, makes, laidStart, sameConfig, _⟩ := exists_ofRoutine config reachable.isSound
  rw [makes] at isRun
  obtain ⟨laid, runConfig⟩ : drawing.LaidOut ∧ drawing.config = start.config :=
    isRun ▸ laidStart.run edits
  exact ⟨laid, runConfig.trans sameConfig⟩

/-- Laying out all rungs of a drawing that is laid out changes its last report only. -/
theorem LaidOut.relayAll_eq {drawing : Drawing α} (laid : LaidOut drawing) :
    relayAll.on drawing =
      (.ok (), { drawing with relaid := List.range drawing.routine.size }) := by
  obtain ⟨after, relays, sameConfig, sameRoutine, laidAfter, relaid⟩ :=
    exists_relayAll drawing laid.sound laid.bands_length
  rw [relays, laid.unique laidAfter sameConfig sameRoutine, relaid]

/-- A drawing that is laid out is the new drawing of its routine but for the last report. -/
theorem LaidOut.ofRoutine_eq {drawing : Drawing α} (laid : LaidOut drawing) :
    ofRoutine drawing.config drawing.routine =
      (.ok (), { drawing with relaid := List.range drawing.routine.size }) := by
  obtain ⟨after, makes, laidAfter, sameConfig, sameRoutine, relaid⟩ :=
    exists_ofRoutine drawing.config laid.sound
  rw [makes, laid.unique laidAfter sameConfig sameRoutine, relaid]

omit [ExactScalar α] in
theorem LaidOut.layout_eq {drawing : Drawing α} (laid : LaidOut drawing) {index : Nat}
    {rung : Rung} (stands : drawing.routine.rungs[index]? = some rung) :
    ∃ layout, drawing.layouts[index]? = some layout ∧
      (layoutRung drawing.config .empty
        (rungInput index (rungTop drawing.config drawing.layouts index) rung)).map Prod.fst =
          .ok layout ∧
      drawing.bands[index]? =
        some (some ⟨rungTop drawing.config drawing.layouts index, layout.height⟩) := by
  obtain ⟨bounded, _⟩ := List.getElem?_eq_some_iff.mp stands
  obtain ⟨layout, draws⟩ := laid.draws index rung stands not_false
  have start := laid.bandStart_eq (Nat.le_of_lt bounded)
  have isOf := draws.isOf
  have band := draws.band
  rw [start] at isOf band
  refine ⟨layout, draws.cached, ?_, band⟩
  rw [isOf.laidOut]
  rfl

omit [ExactScalar α] in
theorem LaidOut.mem_arena {drawing : Drawing α} (laid : LaidOut drawing) {record : Branch α} :
    record ∈ drawing.arena.records ↔ ∃ layout ∈ drawing.layouts, record ∈ layout.branches := by
  constructor
  · intro member
    obtain ⟨index, bounded, named⟩ := laid.numbered record member
    obtain ⟨rung, layout, draws⟩ := laid.exists_draws bounded
    exact ⟨layout, List.mem_of_getElem? draws.cached, (draws.branches record).mpr ⟨member, named⟩⟩
  · rintro ⟨layout, isLayout, member⟩
    obtain ⟨index, cached⟩ := List.mem_iff_getElem?.mp isLayout
    obtain ⟨rung, draws⟩ := laid.exists_draws_of_cached cached
    exact ((draws.branches record).mp member).1

omit [ExactScalar α] in
theorem LaidOut.get?_arena {drawing : Drawing α} (laid : LaidOut drawing) {index : Nat}
    {layout : LayoutResult α} (cached : drawing.layouts[index]? = some layout)
    {record : Branch α} (member : record ∈ layout.branches) :
    drawing.arena.get? record.id = some record ∧ record.rungNumber = .ofNat index := by
  obtain ⟨rung, draws⟩ := laid.exists_draws_of_cached cached
  obtain ⟨inArena, named⟩ := (draws.branches record).mp member
  exact ⟨laid.sorted.get?_eq inArena, named⟩

/--
After any run of edits a drawing is what laying out all rungs anew would give.  Rungs
stand one below the other, each with the layout that the engine gives it there, and
the arena holds the branches of these layouts and nothing else.
-/
theorem run_eq_relayAll (config : LayoutConfig α) {routine : Routine}
    (reachable : routine.Reachable) (edits : List Edit) :
    (ofRoutine config routine).1 = .ok () ∧
    ∀ drawing : Drawing α, drawing = (ofRoutine config routine).2.run edits →
      relayAll.on drawing =
        (.ok (), { drawing with relaid := List.range drawing.routine.size }) ∧
      ofRoutine config drawing.routine =
        (.ok (), { drawing with relaid := List.range drawing.routine.size }) ∧
      drawing.layouts.length = drawing.routine.size ∧
      drawing.bands.length = drawing.routine.size ∧
      (∀ index rung, drawing.routine.rungs[index]? = some rung →
        ∃ layout, drawing.layouts[index]? = some layout ∧
          (layoutRung config .empty
            (rungInput index (rungTop config drawing.layouts index) rung)).map Prod.fst =
              .ok layout ∧
          drawing.bands[index]? =
            some (some ⟨rungTop config drawing.layouts index, layout.height⟩)) ∧
      (∀ record, record ∈ drawing.arena.records ↔
        ∃ layout ∈ drawing.layouts, record ∈ layout.branches) ∧
      (∀ index layout, drawing.layouts[index]? = some layout → ∀ record ∈ layout.branches,
        drawing.arena.get? record.id = some record ∧ record.rungNumber = .ofNat index) ∧
      (drawing.arena.records.map Branch.id).Nodup := by
  obtain ⟨start, makes, laidStart, startConfig, _, _⟩ :=
    exists_ofRoutine config reachable.isSound
  rw [makes]
  refine ⟨rfl, ?_⟩
  rintro drawing rfl
  obtain ⟨laid, runConfig⟩ := laidStart.run edits
  obtain rfl : (start.run edits).config = config := runConfig.trans startConfig
  refine ⟨laid.relayAll_eq, laid.ofRoutine_eq, laid.length_layouts, laid.bands_length,
    fun index rung stands => laid.layout_eq stands, fun record => laid.mem_arena,
    fun index layout cached record member => laid.get?_arena cached member, ?_⟩
  exact List.pairwise_map.mpr (laid.sorted.ascending.imp Branch.Precedes.ne)

/-- Edits of two rungs, some of which fail, with a rung put before both and the last one removed. -/
def sampleEdits : List Edit :=
  [.insertBranch (.ofNat 1) (.ofNat 0) (.ofNat 1) none,
    .insertBranch (.ofNat 9) (.ofNat 0) (.ofNat 1) none,
    .addRung ⟨some "[XIC(E),]OTE(F);", some "new"⟩ (some (.ofNat 0)),
    .moveElement ⟨.ofNat 1, .ofNat 1⟩ ⟨.ofNat 2, .ofNat 7, none, none⟩,
    .removeRung (.ofNat 2)]

theorem run_eq_relayAll_of_sample :
    ∃ routine, Routine.ofSource Routine.sampleSource = .ok routine ∧
      ∀ drawing : Drawing Rat, drawing = (ofRoutine .standard routine).2.run sampleEdits →
        drawing.layouts.length = drawing.routine.size ∧
        (relayAll.on drawing).1 = .ok () := by
  obtain ⟨routine, loads⟩ : ∃ routine, Routine.ofSource Routine.sampleSource = .ok routine :=
    exists_ok_of_isSome (by decide +kernel)
  refine ⟨routine, loads, ?_⟩
  intro drawing isRun
  obtain ⟨relays, _, length_eq, _⟩ :=
    (run_eq_relayAll .standard (.loaded loads) sampleEdits).2 drawing isRun
  rw [relays]
  exact ⟨length_eq, rfl⟩

end Drawing
end LadderDiagram
