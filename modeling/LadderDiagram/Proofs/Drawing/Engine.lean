import LadderDiagram.Proofs.Drawing.Run
import LadderDiagram.Proofs.Layout.History

/-!
# The engine of a drawing

A drawing has one arena for all its records, and a rung is laid out on it as by an engine
without a history.  An engine that lays out one rung after the other has a registry, whose
arena has a limited number of places.  The two are the same as long as no more handles have been
given than there are places: what is asked of the arena has the answer of the registry, a rung
is laid out again by a layout of the engine, and after any run of edits the engine of a drawing
is one that has laid out the rungs from top to bottom.
-/

namespace LadderDiagram

variable {α : Type}

/-! ### Registries with nothing aside -/

namespace Registry

/-- A registry between two passes that has a place for each of its records. -/
def ofArena (arena : Arena α) : Registry α := ⟨.idle arena, []⟩

@[simp] theorem get?_ofArena (arena : Arena α) (id : BranchId) :
    (ofArena arena).get? id = arena.get? id :=
  Option.or_none

theorem isSorted_ofArena {arena : Arena α} (sorted : arena.IsSorted)
    (placed : ∀ record ∈ arena.records, isPlace record.id) : (ofArena arena).IsSorted :=
  ⟨sorted, placed, fun _ member => absurd member List.not_mem_nil⟩

/-- Records that all have places are put into the arena. -/
theorem replaceRung_ofArena {branches : List (Branch α)}
    (placed : ∀ branch ∈ branches, isPlace branch.id) (arena : Arena α) (number : Address) :
    (ofArena arena).replaceRung number branches =
      ofArena (arena.replaceRung number branches) := by
  have all : branches.filter (isPlace ·.id) = branches := List.filter_eq_self.mpr placed
  have none : branches.filter (!isPlace ·.id) = [] := by
    refine List.filter_eq_nil_iff.mpr fun branch member => ?_
    rw [placed branch member]
    exact Bool.false_ne_true
  rw [replaceRung_eq, all, none]
  rfl

end Registry

namespace LayoutEngine

variable [Scalar α] {config : LayoutConfig α} {arena : Arena α}

/-- An engine between two layouts that has a place for each of its records. -/
def ofArena (config : LayoutConfig α) (arena : Arena α) : LayoutEngine α :=
  ⟨config, .ofArena arena⟩

omit [Scalar α] in
theorem isReady_ofArena (sorted : arena.IsSorted)
    (placed : ∀ record ∈ arena.records, isPlace record.id) :
    (ofArena config arena).IsReady config :=
  ⟨rfl, rfl, Registry.isSorted_ofArena sorted placed⟩

/--
Where all handles have places, a layout of the engine is one on its arena: it fails alike, or
it gives the same result and the engine goes on with the same records.
-/
theorem layout_ofArena (input : RungInput α) (ready : (ofArena config arena).IsReady config)
    (places : ∀ id ∈ openedIds (drafts input.elements), isPlace id) :
    (ofArena config arena).layout input =
      match layoutRung config arena input with
      | .ok (result, after) => (.ok result, ofArena config after)
      | .error error => (.error error, ofArena config arena) := by
  rcases ready.layout_cases input with ⟨cause, first, fails⟩ | ⟨_, result, isOf, laidOut⟩
  · rw [fails, layoutRung_of_imbalance config arena first]
  · have placed : ∀ branch ∈ result.branches, isPlace branch.id := fun branch member =>
      places branch.id (isOf.ids_eq ▸ List.mem_map_of_mem member)
    rw [laidOut, isOf.laidOut arena]
    exact congrArg (Prod.mk _) (congrArg (LayoutEngine.mk config)
      (Registry.replaceRung_ofArena placed arena input.rungNumber))

end LayoutEngine

/-! ### Drawings and their engines -/

namespace Drawing

variable [Scalar α] {drawing after : Drawing α} {index : Nat} {rung : Rung}

/-- The engine with the configuration and the records of a drawing. -/
def engine (drawing : Drawing α) : LayoutEngine α := .ofArena drawing.config drawing.arena

/-- What the layouts of all rungs depend on, from top to bottom. -/
def inputs (drawing : Drawing α) : List (RungInput α) :=
  drawing.routine.rungs.mapIdx fun index rung =>
    rungInput index (drawing.bandStart index) rung

/--
A rung is laid out again by a layout of the engine: where that fails, nothing is changed, and
else the drawing has the records with which the engine goes on.
-/
theorem on_relayRung_cases (index : Nat) (ready : drawing.engine.IsReady drawing.config)
    (places : ∀ id ∈ rung.handles, isPlace id) :
    (∃ error,
      drawing.engine.layout (rungInput index (drawing.bandStart index) rung) =
        (.error error, drawing.engine) ∧
      (relayRung index rung).on drawing = (.error error, drawing)) ∨
    ∃ layout arena,
      drawing.engine.layout (rungInput index (drawing.bandStart index) rung) =
        (.ok layout, .ofArena drawing.config arena) ∧
      (relayRung index rung).on drawing =
        (.ok (hasMoved drawing.bands[index]?.join (drawing.bandStart index) layout.height),
          { drawing.withLayout index layout with arena := arena }) := by
  have laid := LayoutEngine.layout_ofArena (rungInput index (drawing.bandStart index) rung)
    ready places
  unfold relayRung
  rw [Action.on_bind, Action.on_get]
  dsimp only
  rw [Action.on_bind, Action.on_settled]
  cases outcome : layoutRung drawing.config drawing.arena
      (rungInput index (drawing.bandStart index) rung) with
  | error error =>
      rw [outcome] at laid
      exact .inl ⟨error, laid, rfl⟩
  | ok result =>
      rw [outcome] at laid
      exact .inr ⟨result.1, result.2, laid, rfl⟩

theorem engine_of_relayRung {moved : Bool} (ready : drawing.engine.IsReady drawing.config)
    (places : ∀ id ∈ rung.handles, isPlace id)
    (relays : (relayRung index rung).on drawing = (.ok moved, after)) :
    after.config = drawing.config ∧
      after.engine =
        (drawing.engine.layout (rungInput index (drawing.bandStart index) rung)).2 := by
  rcases on_relayRung_cases index ready places with ⟨error, _, fails⟩ |
    ⟨layout, arena, laid, succeeds⟩
  · cases fails.symm.trans relays
  · cases succeeds.symm.trans relays
    rw [laid]
    exact ⟨rfl, rfl⟩

/-- A pass over some rungs is a run of layouts of the engine. -/
theorem engine_of_relayFrom {dirty : Nat → Bool} {slid : Bool} {rungs : List Rung}
    {numbers : List Nat} (ready : drawing.engine.IsReady drawing.config)
    (places : ∀ rung ∈ rungs, ∀ id ∈ rung.handles, isPlace id)
    (relays : (relayFrom dirty index slid rungs).on drawing = (.ok numbers, after)) :
    ∃ inputs : List (RungInput α), inputs.map (·.rungNumber) = numbers.map .ofNat ∧
      after.engine =
        inputs.foldl (fun engine input => (engine.layout input).2) drawing.engine := by
  induction rungs generalizing index slid drawing numbers with
  | nil =>
      cases relays
      exact ⟨[], rfl, rfl⟩
  | cons rung rest ih =>
      have placesRest := fun own member => places own (List.mem_cons_of_mem rung member)
      unfold relayFrom at relays
      split at relays
      · obtain ⟨moved, between, relaysHere, relays⟩ := Action.exists_of_on_bind relays
        obtain ⟨others, final, relaysRest, answers⟩ := Action.exists_of_on_bind relays
        cases answers
        obtain ⟨sameConfig, laid⟩ :=
          engine_of_relayRung ready (places rung List.mem_cons_self) relaysHere
        have readyNext : between.engine.IsReady between.config := by
          rw [laid, sameConfig]
          exact ready.layout _
        obtain ⟨inputs, named, reached⟩ := ih readyNext placesRest relaysRest
        rw [laid] at reached
        refine ⟨rungInput index (drawing.bandStart index) rung :: inputs, ?_, reached⟩
        rw [List.map_cons, List.map_cons, named]
        rfl
      · exact ih ready placesRest relays

/-! ### Drawings that are laid out -/

theorem isPlace_ofNat {value : Nat} (few : value < placeCount) : isPlace (.ofNat value) = true :=
  decide_eq_true few

namespace LaidOut

variable {layout : LayoutResult α} (laid : drawing.LaidOut)

include laid

/-- No record of another rung has a handle of a rung. -/
theorem id_not_mem_of_apart (draws : drawing.Draws index rung layout) {record : Branch α}
    (member : record ∈ drawing.arena.records) (apart : record.rungNumber ≠ .ofNat index) :
    record.id ∉ layout.branches.map Branch.id := by
  intro shared
  obtain ⟨branch, isBranch, same⟩ := List.mem_map.mp shared
  obtain ⟨inArena, named⟩ := (draws.branches branch).mp isBranch
  have found := laid.sorted.get?_eq inArena
  rw [same, laid.sorted.get?_eq member] at found
  obtain rfl := Option.some.inj found
  exact apart named

/-- The records of a rung are put into any arena that is in order. -/
theorem replaceRung_of_draws (draws : drawing.Draws index rung layout) {arena : Arena α}
    (sorted : arena.IsSorted) :
    (arena.replaceRung (.ofNat index) layout.branches).IsSorted ∧
      ∀ record, record ∈ (arena.replaceRung (.ofNat index) layout.branches).records ↔
        record ∈ layout.branches ∨ record ∈ arena.records ∧ record.rungNumber ≠ .ofNat index ∧
          record.id ∉ layout.branches.map Branch.id := by
  have ids : layout.branches.map Branch.id = rung.handles := draws.isOf.ids_eq
  have distinct : (layout.branches.map Branch.id).Nodup :=
    ids ▸ (laid.sound.rungAt draws.stands).nodup_handles
  refine sorted.replaceRung (fun branch member => ?_) distinct (.ofNat index)
  obtain ⟨inArena, _⟩ := (draws.branches branch).mp member
  exact laid.sorted.counted branch inArena

/-- Laying out a rung where it stands puts in the records that are there already. -/
theorem replaceRung_eq_self (draws : drawing.Draws index rung layout) :
    drawing.arena.replaceRung (.ofNat index) layout.branches = drawing.arena := by
  obtain ⟨sorted, members⟩ := laid.replaceRung_of_draws draws laid.sorted
  refine sorted.ext laid.sorted fun record => ?_
  rw [members]
  constructor
  · rintro (new | ⟨old, _⟩)
    · exact ((draws.branches record).mp new).1
    · exact old
  · intro member
    by_cases own : record.rungNumber = .ofNat index
    · exact .inl ((draws.branches record).mpr ⟨member, own⟩)
    · exact .inr ⟨member, own, laid.id_not_mem_of_apart draws member own⟩

variable (few : drawing.routine.nextId ≤ placeCount)

include few

theorem isPlace_of_mem_handles {id : BranchId} (member : id ∈ drawing.routine.handles) :
    isPlace id = true := by
  obtain ⟨value, _, given, rfl⟩ := laid.sound.given id member
  exact isPlace_ofNat (given.trans_le few)

theorem isPlace_of_draws (draws : drawing.Draws index rung layout) :
    ∀ id ∈ rung.handles, isPlace id = true :=
  fun _ member =>
    laid.isPlace_of_mem_handles few (Routine.mem_handles_of_getElem? draws.stands member)

theorem isPlace_of_mem_arena {record : Branch α} (member : record ∈ drawing.arena.records) :
    isPlace record.id = true := by
  obtain ⟨index, bounded, named⟩ := laid.numbered record member
  obtain ⟨rung, layout, draws⟩ := laid.exists_draws bounded
  have isBranch := (draws.branches record).mpr ⟨member, named⟩
  have ids : layout.branches.map Branch.id = rung.handles := draws.isOf.ids_eq
  exact laid.isPlace_of_draws few draws record.id (ids ▸ List.mem_map_of_mem isBranch)

theorem isReady_engine : drawing.engine.IsReady drawing.config :=
  LayoutEngine.isReady_ofArena laid.sorted fun _ member => laid.isPlace_of_mem_arena few member

/-- The next rung is laid out by an engine that has the records of the rungs above. -/
theorem after_take_succ {arena : Arena α}
    (draws : drawing.Draws index rung layout)
    (reached : LayoutEngine.after drawing.config (drawing.inputs.take index) =
      .ofArena drawing.config arena) :
    LayoutEngine.after drawing.config (drawing.inputs.take (index + 1)) =
      .ofArena drawing.config (arena.replaceRung (.ofNat index) layout.branches) := by
  have next : drawing.inputs[index]? =
      some (rungInput index (drawing.bandStart index) rung) := by
    rw [inputs, List.getElem?_mapIdx, draws.stands]
    rfl
  have ready : (LayoutEngine.ofArena drawing.config arena).IsReady drawing.config :=
    reached ▸ LayoutEngine.isReady_after drawing.config (drawing.inputs.take index)
  have laidOut := LayoutEngine.layout_ofArena
    (rungInput index (drawing.bandStart index) rung) ready (laid.isPlace_of_draws few draws)
  rw [draws.isOf.laidOut] at laidOut
  rw [List.take_add_one, next, LayoutEngine.after, List.foldl_append]
  change (LayoutEngine.layout (LayoutEngine.after _ _) _).2 = _
  rw [reached, laidOut]
  rfl

/-- Behind the first rungs, laid out from top to bottom, the engine has their records. -/
theorem exists_after_take {count : Nat} (within : count ≤ drawing.routine.size) :
    ∃ arena : Arena α,
      LayoutEngine.after drawing.config (drawing.inputs.take count) =
        .ofArena drawing.config arena ∧
      arena.IsSorted ∧
      ∀ record, record ∈ arena.records ↔
        record ∈ drawing.arena.records ∧ ∃ index < count, record.rungNumber = .ofNat index := by
  induction count with
  | zero =>
      refine ⟨.empty, rfl, Arena.isSorted_empty, fun record => ⟨nofun, ?_⟩⟩
      rintro ⟨_, index, none, _⟩
      exact absurd none (Nat.not_lt_zero index)
  | succ count ih =>
      obtain ⟨arena, reached, sorted, members⟩ := ih (Nat.le_of_succ_le within)
      obtain ⟨rung, layout, draws⟩ := laid.exists_draws within
      obtain ⟨sortedNext, membersNext⟩ := laid.replaceRung_of_draws draws sorted
      refine ⟨_, laid.after_take_succ few draws reached, sortedNext, fun record => ?_⟩
      rw [membersNext, members]
      constructor
      · rintro (new | ⟨⟨inArena, index, before, named⟩, _⟩)
        · obtain ⟨inArena, named⟩ := (draws.branches record).mp new
          exact ⟨inArena, count, Nat.lt_succ_self count, named⟩
        · exact ⟨inArena, index, Nat.lt_succ_of_lt before, named⟩
      · rintro ⟨inArena, index, before, named⟩
        rcases Nat.lt_succ_iff_lt_or_eq.mp before with earlier | rfl
        · have apart : record.rungNumber ≠ .ofNat count := by
            rw [named, Ne, Address.ofNat_inj]
            exact Nat.ne_of_lt earlier
          exact .inr ⟨⟨inArena, index, earlier, named⟩, apart,
            laid.id_not_mem_of_apart draws inArena apart⟩
        · exact .inl ((draws.branches record).mpr ⟨inArena, named⟩)

/-- The engine that has laid out all rungs from top to bottom has the records of the drawing. -/
theorem engine_eq_after : drawing.engine = LayoutEngine.after drawing.config drawing.inputs := by
  obtain ⟨arena, reached, sorted, members⟩ := laid.exists_after_take few (Nat.le_refl _)
  have all : drawing.inputs.length ≤ drawing.routine.size := List.length_mapIdx.le
  have same : drawing.arena = arena := laid.sorted.ext sorted fun record =>
    ((members record).trans (and_iff_left_of_imp (laid.numbered record))).symm
  rw [List.take_of_length_le all] at reached
  rw [reached, ← same]
  rfl

/-- A rung is given the layout that the drawing keeps, and the engine stays as it is. -/
theorem layout_engine (draws : drawing.Draws index rung layout) :
    drawing.engine.layout (rungInput index (drawing.bandStart index) rung) =
      (.ok layout, drawing.engine) := by
  have laidOut := LayoutEngine.layout_ofArena
    (rungInput index (drawing.bandStart index) rung) (laid.isReady_engine few)
    (laid.isPlace_of_draws few draws)
  rw [draws.isOf.laidOut] at laidOut
  refine laidOut.trans (congrArg (Prod.mk _) ?_)
  exact congrArg (LayoutEngine.ofArena drawing.config) (laid.replaceRung_eq_self draws)

end LaidOut

/--
After any run of edits, as long as no more handles have been given than an arena has places, the
engine that has laid out the rungs from top to bottom has the records of the drawing.  It finds
what the arena finds, and to each rung it gives the layout that the drawing keeps, whereby it
stays as it is.
-/
theorem engine_of_isRun [ExactScalar α] (config : LayoutConfig α) {routine : Routine}
    (reachable : routine.Reachable) (edits : List Edit)
    (isRun : drawing = (ofRoutine config routine).2.run edits)
    (few : drawing.routine.nextId ≤ placeCount) :
    drawing.engine = LayoutEngine.after config drawing.inputs ∧
    (∀ id, drawing.engine.registry.get? id = drawing.arena.get? id) ∧
    ∀ index rung, drawing.routine.rungs[index]? = some rung →
      ∃ layout, drawing.layouts[index]? = some layout ∧
        drawing.engine.layout (rungInput index (rungTop config drawing.layouts index) rung) =
          (.ok layout, drawing.engine) := by
  obtain ⟨laid, rfl⟩ := laidOut_of_isRun reachable isRun
  refine ⟨laid.engine_eq_after few, Registry.get?_ofArena drawing.arena,
    fun index rung stands => ?_⟩
  obtain ⟨layout, draws⟩ := laid.draws index rung stands not_false
  have bounded := (List.getElem?_eq_some_iff.mp stands).1
  exact ⟨layout, draws.cached, laid.bandStart_eq bounded.le ▸ laid.layout_engine few draws⟩

end Drawing
end LadderDiagram
