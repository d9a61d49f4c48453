import LadderDiagram.Layout.Registry
import LadderDiagram.Proofs.Layout.Arena
import LadderDiagram.Proofs.Layout.Engine

/-!
# Engines with a history

An engine lays out any elements that it is given, well nested or not, with one registry for all its
passes.  Here the first imbalance of a sequence is made a function of its own, and a pass is shown
to fail with exactly that.  A pass that fails leaves the engine as it was; one that succeeds gives
the layout that an engine without a history gives, and all that it changes is the records of its
rung and of its handles.
-/

namespace LadderDiagram

variable {α : Type}

/-! ### Imbalances -/

/--
The first marker, from left to right, that does not pair up behind some open branches, innermost
first; and else the innermost branch that is still open at the end.
-/
def imbalance? (opened : List BranchId) : List Element → Option Imbalance
  | [] => opened.head?.map .unclosed
  | element :: rest =>
      match element.draft with
      | .instruction _ => imbalance? opened rest
      | .branchStart id => imbalance? (id :: opened) rest
      | .branchNext id =>
          if opened.isEmpty then some (.laidRailOutsideBranch id element.position)
          else imbalance? opened rest
      | .branchEnd id =>
          match opened with
          | [] => some (.laidEndWithoutBranch id element.position)
          | innermost :: outer =>
              if innermost = id then imbalance? outer rest
              else some (.crossedEnd innermost id element.position)

/-- Behind a marker that pairs up the next one counts. -/
theorem imbalance?_cons_of_paired {opened between : List BranchId} {element : Element}
    (pairsUp : branchesAfterDraft? opened element.draft = some between) (rest : List Element) :
    imbalance? opened (element :: rest) = imbalance? between rest := by
  rw [imbalance?]
  cases kind : element.draft with
  | instruction content =>
      rw [kind] at pairsUp
      obtain rfl := Option.some.inj pairsUp
      rfl
  | branchStart id =>
      rw [kind] at pairsUp
      obtain rfl := Option.some.inj pairsUp
      rfl
  | branchNext id =>
      rw [kind] at pairsUp
      cases opened with
      | nil => cases pairsUp
      | cons innermost outer =>
          obtain rfl := Option.some.inj pairsUp
          rfl
  | branchEnd id =>
      rw [kind] at pairsUp
      cases opened with
      | nil => cases pairsUp
      | cons innermost outer =>
          change (if innermost = id then some outer else none) = some between at pairsUp
          change (if innermost = id then _ else _) = _
          split at pairsUp
          next own =>
            obtain rfl := Option.some.inj pairsUp
            exact if_pos own
          next => cases pairsUp

/-- Where every marker pairs up, at most a branch is left open. -/
theorem imbalance?_of_branchesAfter? {opened after : List BranchId} {elements : List Element}
    (pairsUp : branchesAfter? opened (drafts elements) = some after) :
    imbalance? opened elements = after.head?.map .unclosed := by
  induction elements generalizing opened with
  | nil =>
      cases pairsUp
      rfl
  | cons element rest ih =>
      change branchesAfter? opened (element.draft :: drafts rest) = some after at pairsUp
      rw [branchesAfter?_cons] at pairsUp
      obtain ⟨between, here, others⟩ := Option.bind_eq_some_iff.mp pairsUp
      rw [imbalance?_cons_of_paired here]
      exact ih others

/-! ### Walks -/

namespace BranchPass

@[simp] theorem arena_refusing (pass : BranchPass α) (draft : Draft) :
    (pass.refusing draft).arena = pass.arena := by
  cases draft <;> rfl

/-- A pass with an open branch cannot be ended. -/
theorem Tracks.commit_of_open {pass : BranchPass α} {number : Address} {innermost : BranchId}
    {outer met : List BranchId} (tracks : Tracks number (innermost :: outer) met pass) :
    pass.commit = .error (.unbalanced (.unclosed innermost)) := by
  obtain ⟨context, others, record, within, found, rfl, _, _⟩ := tracks.exists_record
  unfold commit
  rw [within]
  dsimp only
  rw [found]
  rfl

end BranchPass

namespace LayoutState

open BranchPass

variable [Scalar α] {input : RungInput α} {state next : LayoutState α} (config : LayoutConfig α)
  {opened met : List BranchId}

theorem arena_of_step {element : Element} (steps : state.step config input element = .ok next) :
    next.pass.arena = state.pass.arena := by
  have moved := step_under config input state.pass.arena state element
  rw [steps] at moved
  have same : Except.ok next = Except.ok (next.under state.pass.arena) := steps.symm.trans moved
  exact congrArg (·.pass.arena) (Except.ok.inj same)

/-- A marker that does not pair up is refused for what it lacks. -/
theorem step_of_unpaired (tracks : Tracks input.rungNumber opened met state.pass)
    {element : Element} (unpaired : branchesAfterDraft? opened element.draft = none)
    (rest : List Element) :
    ∃ cause, imbalance? opened (element :: rest) = some cause ∧
      state.step config input element = .error (.unbalanced cause) := by
  rw [imbalance?, step]
  cases kind : element.draft with
  | instruction content =>
      rw [kind] at unpaired
      cases unpaired
  | branchStart id =>
      rw [kind] at unpaired
      cases unpaired
  | branchNext id =>
      rw [kind] at unpaired
      cases opened with
      | nil =>
          have none : state.pass.contexts = [] := List.map_eq_nil_iff.mp tracks.opened_eq
          refine ⟨_, rfl, ?_⟩
          dsimp only [nextRail]
          rw [none]
      | cons innermost outer => cases unpaired
  | branchEnd id =>
      rw [kind] at unpaired
      cases opened with
      | nil =>
          have none : state.pass.contexts = [] := List.map_eq_nil_iff.mp tracks.opened_eq
          refine ⟨_, rfl, ?_⟩
          dsimp only [closeBranch]
          rw [none]
      | cons innermost outer =>
          obtain ⟨context, others, record, within, found, rfl, _, _⟩ := tracks.exists_record
          have different : record.id ≠ id := by
            rintro rfl
            simp [branchesAfterDraft?] at unpaired
          refine ⟨.crossedEnd record.id id element.position, if_neg different, ?_⟩
          simp only [closeBranch, within, found, if_pos different]

/-- A run fails with the first imbalance of its markers. -/
theorem run_of_unpaired {elements : List Element}
    (tracks : Tracks input.rungNumber opened met state.pass)
    (unpaired : branchesAfter? opened (drafts elements) = none) :
    ∃ cause, imbalance? opened elements = some cause ∧
      state.run config input elements = .error (.unbalanced cause) := by
  induction elements generalizing state opened met with
  | nil => cases unpaired
  | cons element rest ih =>
      change branchesAfter? opened (element.draft :: drafts rest) = none at unpaired
      rw [branchesAfter?_cons] at unpaired
      rw [run]
      cases here : branchesAfterDraft? opened element.draft with
      | none =>
          obtain ⟨cause, isFirst, refused⟩ := step_of_unpaired config tracks here rest
          exact ⟨cause, isFirst, by rw [refused]⟩
      | some between =>
          rw [here, Option.bind_some] at unpaired
          obtain ⟨next, steps, tracksNext⟩ := exists_step config tracks here
          obtain ⟨cause, isFirst, fails⟩ := ih tracksNext unpaired
          refine ⟨cause, (imbalance?_cons_of_paired here rest).trans isFirst, ?_⟩
          rw [steps]
          exact fails

/-- A walk does what a run does, and keeps the arena as it is also where it stops. -/
theorem walk_cases (input : RungInput α) (state : LayoutState α) (elements : List Element) :
    (∃ final, state.run config input elements = .ok final ∧
      state.walk config input elements = (.ok (), final) ∧
        final.pass.arena = state.pass.arena) ∨
      ∃ error left, state.run config input elements = .error error ∧
        state.walk config input elements = (.error error, left) ∧
          left.pass.arena = state.pass.arena := by
  induction elements generalizing state with
  | nil => exact .inl ⟨state, rfl, rfl, rfl⟩
  | cons element rest ih =>
      rw [run, walk]
      cases steps : state.step config input element with
      | error error => exact .inr ⟨error, _, rfl, rfl, arena_refusing _ _⟩
      | ok next =>
          have before := arena_of_step config steps
          rcases ih next with ⟨final, runs, walks, kept⟩ | ⟨error, left, fails, stops, kept⟩
          · exact .inl ⟨final, runs, walks, kept.trans before⟩
          · exact .inr ⟨error, left, fails, stops, kept.trans before⟩

end LayoutState

/-- A rung whose markers do not pair up has no layout in any arena. -/
theorem layoutRung_of_imbalance [Scalar α] {input : RungInput α} {cause : Imbalance}
    (config : LayoutConfig α) (arena : Arena α)
    (first : imbalance? [] input.elements = some cause) :
    layoutRung config arena input = .error (.unbalanced cause) := by
  have begun : BranchPass.Tracks input.rungNumber [] []
      (LayoutState.start config arena input).pass := BranchPass.tracks_start _ _
  unfold layoutRung
  cases nested : branchesAfter? [] (drafts input.elements) with
  | none =>
      obtain ⟨own, isFirst, fails⟩ := LayoutState.run_of_unpaired config begun nested
      obtain rfl := Option.some.inj (isFirst.symm.trans first)
      rw [fails]
  | some after =>
      obtain ⟨final, runs, tracks⟩ := LayoutState.exists_run config begun nested
      have left := (imbalance?_of_branchesAfter? nested).symm.trans first
      cases after with
      | nil => cases left
      | cons innermost outer =>
          obtain rfl := Option.some.inj left
          rw [runs]
          dsimp only
          rw [tracks.commit_of_open]

/-! ### Registries -/

/-- Whether a handle is a place of an arena. -/
def isPlace (id : BranchId) : Bool := id.toNat?.any (· < placeCount)

theorem exists_ofNat_of_isPlace {id : BranchId} (place : isPlace id) :
    ∃ value, id = .ofNat value := by
  obtain ⟨value, names, _⟩ := (Option.any_eq_true _ _).mp place
  match id, names with
  | .whole (.ofNat own), _ => exact ⟨own, rfl⟩

/-- Records of which some handles are left out are looked up as before under the others. -/
theorem find?_filter_id (keep : BranchId → Bool) (branches : List (Branch α)) (id : BranchId) :
    (branches.filter fun branch => keep branch.id).find? (·.id == id) =
      if keep id then branches.find? (·.id == id) else none := by
  rw [List.find?_filter]
  split
  next kept =>
    congr 1
    funext branch
    by_cases own : branch.id = id
    · simp [own, kept]
    · simp [own]
  next left =>
    rw [List.find?_eq_none]
    intro branch _ found
    obtain ⟨kept, own⟩ := of_decide_eq_true found
    exact left (beq_iff_eq.mp own ▸ kept)

namespace Registry

variable {registry : Registry α}

/-- The arena is in order and holds records with places, and the others are kept aside. -/
structure IsSorted (registry : Registry α) : Prop where
  arena : registry.pass.arena.IsSorted
  placed : ∀ record ∈ registry.pass.arena.records, isPlace record.id
  aside : ∀ record ∈ registry.aside, isPlace record.id = false

theorem isSorted_empty : (empty : Registry α).IsSorted :=
  ⟨Arena.isSorted_empty, fun _ member => absurd member List.not_mem_nil,
    fun _ member => absurd member List.not_mem_nil⟩

theorem IsSorted.get?_eq (sorted : registry.IsSorted) (id : BranchId) :
    registry.get? id =
      if isPlace id then registry.pass.arena.get? id else registry.aside.find? (·.id == id) := by
  unfold get?
  split
  next place =>
    have none : registry.aside.find? (·.id == id) = none := by
      rw [List.find?_eq_none]
      intro record member same
      rw [← beq_iff_eq.mp same, sorted.aside record member] at place
      cases place
    rw [none, Option.or_none]
  next other =>
    have none : registry.pass.arena.get? id = none := by
      rw [Arena.get?, List.find?_eq_none]
      intro record member same
      exact other (beq_iff_eq.mp same ▸ sorted.placed record member)
    rw [none, Option.none_or]

end Registry

/-- The records with a handle that are found and listed once those of a rung have been replaced. -/
structure Registry.HasReplaced (before after : Registry α) (number : Address)
    (branches : List (Branch α)) : Prop where
  /-- Of several records with one handle the last one counts. -/
  found : ∀ id ∈ branches.map (·.id), after.get? id = branches.reverse.find? (·.id == id)
  /-- The rung has lost its records, but for those that no list shows. -/
  others : ∀ id ∉ branches.map (·.id),
    after.get? id = (before.get? id).filter fun record =>
      !(record.hasPlace && record.rungNumber == number)
  listed : ∀ record, record ∈ after.pass.arena.records ↔
    record.hasPlace ∧ after.get? record.id = some record

namespace Registry

variable {registry : Registry α}

theorem replaceRung_eq (registry : Registry α) (number : Address) (branches : List (Branch α)) :
    registry.replaceRung number branches =
      { registry.onArena (·.replaceRung number (branches.filter (isPlace ·.id))) with
        aside := (branches.filter (!isPlace ·.id)).reverse ++ registry.aside } := by
  unfold replaceRung
  rw [List.partition_eq_filter_filter]
  rfl

theorem counted_filter_isPlace (branches : List (Branch α)) :
    ∀ branch ∈ branches.filter (isPlace ·.id), ∃ value, branch.id = .ofNat value :=
  fun _ member => exists_ofNat_of_isPlace (List.mem_filter.mp member).2

theorem IsSorted.replaceRung (sorted : registry.IsSorted) (number : Address)
    (branches : List (Branch α)) : (registry.replaceRung number branches).IsSorted := by
  obtain ⟨arenaSorted, found⟩ :=
    sorted.arena.get?_replaceRung (counted_filter_isPlace branches) number
  rw [replaceRung_eq]
  refine ⟨arenaSorted, ?_, ?_⟩
  · intro record member
    have isFound := (found record.id).symm.trans (arenaSorted.get?_eq member)
    rcases Option.or_eq_some_iff.mp isFound with isNew | ⟨_, isOld⟩
    · exact (List.mem_filter.mp (List.mem_reverse.mp (List.mem_of_find?_eq_some isNew))).2
    · exact sorted.placed record
        (sorted.arena.get?_eq_some_iff.mp (Option.filter_eq_some_iff.mp isOld).1).1
  · intro record member
    rcases List.mem_append.mp member with isNew | isOld
    · exact Bool.not_eq_true' _ ▸ (List.mem_filter.mp (List.mem_reverse.mp isNew)).2
    · exact sorted.aside record isOld

/-- What is found once the records of a rung have been replaced. -/
theorem IsSorted.get?_replaceRung (sorted : registry.IsSorted) (number : Address)
    (branches : List (Branch α)) (id : BranchId) :
    (registry.replaceRung number branches).get? id =
      (branches.reverse.find? (·.id == id)).or
        ((registry.get? id).filter fun record =>
          !(record.hasPlace && record.rungNumber == number)) := by
  have found := (sorted.arena.get?_replaceRung (counted_filter_isPlace branches) number).2 id
  rw [(sorted.replaceRung number branches).get?_eq, sorted.get?_eq, replaceRung_eq]
  dsimp only [onArena]
  by_cases place : isPlace id = true
  · have placed : ∀ record ∈ registry.pass.arena.get? id, record.hasPlace = true := by
      intro record isRecord
      obtain ⟨_, rfl⟩ := sorted.arena.get?_eq_some_iff.mp isRecord
      exact place
    rw [if_pos place, if_pos place, found, ← List.filter_reverse,
      find?_filter_id isPlace, if_pos place]
    congr 1
    cases isRecord : registry.pass.arena.get? id with
    | none => rfl
    | some record =>
        rw [Option.filter_some, Option.filter_some, placed record isRecord, Bool.true_and]
        rfl
  · have unplaced : ∀ record ∈ registry.aside.find? (·.id == id), record.hasPlace = false :=
      fun record isRecord => sorted.aside record (List.mem_of_find?_eq_some isRecord)
    rw [if_neg place, if_neg place, List.find?_append, ← List.filter_reverse,
      find?_filter_id (!isPlace ·), if_pos (by simpa using place)]
    congr 1
    cases isRecord : registry.aside.find? (·.id == id) with
    | none => rfl
    | some record =>
        rw [Option.filter_some, unplaced record isRecord]
        rfl

theorem IsSorted.hasReplaced (sorted : registry.IsSorted) (number : Address)
    (branches : List (Branch α)) :
    registry.HasReplaced (registry.replaceRung number branches) number branches := by
  have found (id : BranchId) := sorted.get?_replaceRung number branches id
  have sortedAfter := sorted.replaceRung number branches
  refine ⟨fun id member => ?_, fun id other => ?_, fun record => ?_⟩
  · rw [found]
    obtain ⟨branch, isBranch, own⟩ := List.mem_map.mp member
    cases isLast : branches.reverse.find? (·.id == id) with
    | none =>
        have differs := List.find?_eq_none.mp isLast branch (List.mem_reverse.mpr isBranch)
        exact absurd (beq_iff_eq.mpr own) differs
    | some last => rfl
  · have none : branches.reverse.find? (·.id == id) = none := by
      rw [List.find?_eq_none]
      intro branch isBranch own
      exact other (List.mem_map.mpr ⟨branch, List.mem_reverse.mp isBranch, beq_iff_eq.mp own⟩)
    rw [found, none, Option.none_or]
  · constructor
    · intro member
      have place := sortedAfter.placed record member
      refine ⟨place, ?_⟩
      rw [sortedAfter.get?_eq, if_pos place]
      exact sortedAfter.arena.get?_eq member
    · rintro ⟨hasPlace, isFound⟩
      have place : isPlace record.id = true := hasPlace
      rw [sortedAfter.get?_eq, if_pos place] at isFound
      exact (sortedAfter.arena.get?_eq_some_iff.mp isFound).1

end Registry

/-! ### Engines -/

namespace LayoutEngine

variable {config : LayoutConfig α} {engine : LayoutEngine α} {input : RungInput α}

/-- An engine between two layouts. -/
structure IsReady (config : LayoutConfig α) (engine : LayoutEngine α) : Prop where
  config_eq : engine.config = config
  idle : engine.registry.pass = .idle engine.registry.pass.arena
  sorted : engine.registry.IsSorted

theorem isReady_fresh (config : LayoutConfig α) : (fresh config).IsReady config :=
  ⟨rfl, rfl, Registry.isSorted_empty⟩

theorem IsReady.replaceRung (ready : engine.IsReady config) (number : Address)
    (branches : List (Branch α)) :
    IsReady config { engine with registry := engine.registry.replaceRung number branches } := by
  refine ⟨ready.config_eq, ?_, ready.sorted.replaceRung number branches⟩
  rw [Registry.replaceRung_eq]
  dsimp only [Registry.onArena]
  rw [ready.idle]
  rfl

/-- Ending a pass without a trace gives back the engine of which the pass has kept the arena. -/
theorem IsReady.aborted (ready : engine.IsReady config) {left : BranchPass α}
    (kept : left.arena = engine.registry.pass.arena) :
    { engine with registry := Registry.abort { engine.registry with pass := left } } = engine := by
  obtain ⟨own, ⟨pass, aside⟩⟩ := engine
  dsimp only [Registry.abort, BranchPass.abort] at kept ⊢
  rw [kept, ← ready.idle]

variable [Scalar α]

/-- A walk that stops fails the layout. -/
theorem IsReady.layout_of_stopped (ready : engine.IsReady config) {error : LadderError}
    {left : LayoutState α}
    (stops : (engine.start input).walk engine.config input input.elements = (.error error, left))
    (kept : left.pass.arena = engine.registry.pass.arena) :
    engine.layout input = (.error error, engine) := by
  unfold layout
  rw [stops]
  exact congrArg (Prod.mk _) (ready.aborted kept)

/-- So does a branch that is still open behind the last element. -/
theorem IsReady.layout_of_open (ready : engine.IsReady config) {final : LayoutState α}
    {innermost : BranchId} {outer met : List BranchId}
    (walks : (engine.start input).walk engine.config input input.elements = (.ok (), final))
    (kept : final.pass.arena = engine.registry.pass.arena)
    (tracks : BranchPass.Tracks input.rungNumber (innermost :: outer) met final.pass) :
    engine.layout input = (.error (.unbalanced (.unclosed innermost)), engine) := by
  unfold layout
  rw [walks]
  dsimp only [Registry.commit]
  rw [tracks.commit_of_open]
  exact congrArg (Prod.mk _) (ready.aborted kept)

/-- Where none is open any more, the records of the pass replace those of the rung. -/
theorem IsReady.layout_of_closed (ready : engine.IsReady config) {final : LayoutState α}
    {met : List BranchId}
    (walks : (engine.start input).walk engine.config input input.elements = (.ok (), final))
    (kept : final.pass.arena = engine.registry.pass.arena)
    (tracks : BranchPass.Tracks input.rungNumber [] met final.pass) :
    engine.layout input =
      (.ok (final.result engine.config input final.pass.records),
        { engine with
          registry := engine.registry.replaceRung input.rungNumber final.pass.records }) := by
  have none : final.pass.contexts = [] := List.map_eq_nil_iff.mp tracks.opened_eq
  have back : Registry.abort ⟨final.pass, engine.registry.aside⟩ = engine.registry :=
    congrArg LayoutEngine.registry (ready.aborted kept)
  unfold layout
  rw [walks]
  dsimp only [Registry.commit, BranchPass.commit]
  rw [none]
  dsimp only
  rw [tracks.rung_eq]
  dsimp only
  rw [back]

/--
A layout fails with the first imbalance and leaves the engine alone, or it is the one of its
rung.
-/
theorem IsReady.layout_cases (ready : engine.IsReady config) (input : RungInput α) :
    (∃ cause, imbalance? [] input.elements = some cause ∧
      engine.layout input = (.error (.unbalanced cause), engine)) ∨
    imbalance? [] input.elements = none ∧ ∃ result : LayoutResult α, result.IsOf config input ∧
      engine.layout input =
        (.ok result,
          { engine with
            registry := engine.registry.replaceRung input.rungNumber result.branches }) := by
  have started : engine.start input =
      LayoutState.start engine.config engine.registry.pass.arena input := rfl
  have begun : BranchPass.Tracks input.rungNumber [] [] (engine.start input).pass :=
    BranchPass.tracks_start _ _
  have walked := LayoutState.walk_cases engine.config input (engine.start input) input.elements
  cases nested : branchesAfter? [] (drafts input.elements) with
  | none =>
      obtain ⟨cause, isFirst, fails⟩ := LayoutState.run_of_unpaired engine.config begun nested
      rcases walked with ⟨final, runs, _⟩ | ⟨error, left, stops, walks, kept⟩
      · cases fails.symm.trans runs
      · obtain rfl := Except.error.inj (fails.symm.trans stops)
        exact .inl ⟨cause, isFirst, ready.layout_of_stopped walks kept⟩
  | some after =>
      have first := imbalance?_of_branchesAfter? nested
      obtain ⟨final, runs, tracks⟩ := LayoutState.exists_run engine.config begun nested
      rcases walked with ⟨other, others, walks, kept⟩ | ⟨error, left, stops, _, _⟩
      case inr => cases runs.symm.trans stops
      obtain rfl := Except.ok.inj (runs.symm.trans others)
      cases after with
      | cons innermost outer =>
          exact .inl ⟨_, first, ready.layout_of_open walks kept tracks⟩
      | nil =>
          obtain ⟨result, isOf⟩ := exists_isOf_of_closes engine.config input nested
          obtain ⟨clean, runsClean, rfl⟩ := isOf.exists_run
          have moved := LayoutState.run_under engine.config input engine.registry.pass.arena
            (LayoutState.start engine.config .empty input) input.elements
          rw [runsClean] at moved
          obtain rfl := Except.ok.inj (runs.symm.trans moved)
          have laidOut := ready.layout_of_closed walks kept tracks
          refine .inr ⟨first, _, ready.config_eq ▸ isOf, laidOut⟩

/-- A layout changes neither the configuration nor that no pass is under way. -/
theorem IsReady.layout (ready : engine.IsReady config) (input : RungInput α) :
    (engine.layout input).2.IsReady config := by
  rcases ready.layout_cases input with ⟨_, _, fails⟩ | ⟨_, result, _, laidOut⟩
  · rw [fails]
    exact ready
  · rw [laidOut]
    exact ready.replaceRung _ _

/-- The engine after some layouts, of which any may have failed. -/
def after (config : LayoutConfig α) (inputs : List (RungInput α)) : LayoutEngine α :=
  inputs.foldl (fun engine input => (engine.layout input).2) (fresh config)

theorem isReady_after (config : LayoutConfig α) (inputs : List (RungInput α)) :
    (after config inputs).IsReady config := by
  unfold after
  generalize isFirst : fresh config = first
  have ready : first.IsReady config := isFirst ▸ isReady_fresh config
  clear isFirst
  induction inputs generalizing first with
  | nil => exact ready
  | cons input rest ih => exact ih _ (ready.layout input)

/-- Two engines between two layouts give one outcome. -/
theorem IsReady.layout_fst_eq (ready : engine.IsReady config) {other : LayoutEngine α}
    (otherReady : other.IsReady config) (input : RungInput α) :
    (engine.layout input).1 = (other.layout input).1 := by
  rcases ready.layout_cases input with ⟨cause, first, fails⟩ | ⟨paired, result, isOf, laidOut⟩
  · rcases otherReady.layout_cases input with ⟨same, firstToo, failsToo⟩ | ⟨pairedToo, _⟩
    · obtain rfl := Option.some.inj (first.symm.trans firstToo)
      rw [fails, failsToo]
    · cases first.symm.trans pairedToo
  · rcases otherReady.layout_cases input with ⟨cause, first, _⟩ | ⟨_, same, sameIsOf, laidOutToo⟩
    · cases paired.symm.trans first
    · obtain rfl := isOf.unique sameIsOf
      rw [laidOut, laidOutToo]

/--
A layout does not depend on what its engine has laid out before, well nested or not: its outcome
is the one of an engine that begins with it.  It fails exactly with the first imbalance, and then
the engine is left as it was.  Else only the records of the rung and of its branches change.
-/
theorem layout_leaves_no_trace (config : LayoutConfig α) (earlier : List (RungInput α))
    (input : RungInput α) :
    let engine := after config earlier
    let next := (engine.layout input).2
    (engine.layout input).1 = ((fresh config).layout input).1 ∧
    (∀ error, (engine.layout input).1 = .error error ↔
      ∃ cause, imbalance? [] input.elements = some cause ∧ error = .unbalanced cause) ∧
    (∀ error, (engine.layout input).1 = .error error → next = engine) ∧
    ∀ result, (engine.layout input).1 = .ok result →
      result.branches.map (·.id) = openedIds (drafts input.elements) ∧
      engine.registry.HasReplaced next.registry input.rungNumber result.branches := by
  intro engine next
  have ready : engine.IsReady config := isReady_after config earlier
  refine ⟨ready.layout_fst_eq (isReady_fresh config) input, ?_⟩
  rcases ready.layout_cases input with ⟨cause, first, fails⟩ | ⟨paired, result, isOf, laidOut⟩
  · dsimp only [next]
    rw [fails, first]
    refine ⟨fun error => ⟨?_, ?_⟩, fun _ _ => rfl, nofun⟩
    · rintro same
      exact ⟨cause, rfl, (Except.error.inj same).symm⟩
    · rintro ⟨_, same, rfl⟩
      rw [Option.some.inj same]
  · dsimp only [next]
    rw [laidOut, paired]
    refine ⟨fun error => ⟨nofun, ?_⟩, nofun, ?_⟩
    · rintro ⟨_, same, _⟩
      cases same
    · rintro _ same
      obtain rfl := Except.ok.inj same
      exact ⟨isOf.ids_eq, ready.sorted.hasReplaced _ _⟩

/-- A rung with one branch that has no further rail, and another rung that crosses two branches. -/
def sampleRungs : RungInput Rat × RungInput Rat :=
  let marker (draft : Draft) (position : Nat) : Element :=
    ⟨draft, .ofNat position, .ofNat 0, none, none, none⟩
  (⟨.ofNat 0, 50, [marker (.branchStart (.ofNat 4)) 0, marker (.branchEnd (.ofNat 4)) 1], 0⟩,
    ⟨.ofNat 0, 50, [marker (.branchStart (.ofNat 7)) 0, marker (.branchStart (.ofNat 8)) 1,
      marker (.branchEnd (.ofNat 7)) 2], 0⟩)

theorem layout_leaves_no_trace_of_samples :
    let engine := after .standard [sampleRungs.2, sampleRungs.1, sampleRungs.2]
    (engine.layout sampleRungs.2).1 =
        .error (.unbalanced (.crossedEnd (.ofNat 8) (.ofNat 7) (.ofNat 2))) ∧
      (engine.layout sampleRungs.2).2 = engine ∧
      ∃ result, (engine.layout sampleRungs.1).1 = .ok result ∧
        result.branches.map (·.id) = [.ofNat 4] ∧
        (engine.layout sampleRungs.1).2.registry.get? (.ofNat 4) =
          result.branches.reverse.find? (·.id == .ofNat 4) := by
  intro engine
  obtain ⟨_, fails, keeps, _⟩ := layout_leaves_no_trace .standard
    [sampleRungs.2, sampleRungs.1, sampleRungs.2] sampleRungs.2
  obtain ⟨_, failsToo, _, replaces⟩ := layout_leaves_no_trace .standard
    [sampleRungs.2, sampleRungs.1, sampleRungs.2] sampleRungs.1
  have crossed := (fails _).mpr ⟨_, rfl, rfl⟩
  refine ⟨crossed, keeps _ crossed, ?_⟩
  cases outcome : (engine.layout sampleRungs.1).1 with
  | error error =>
      obtain ⟨_, first, _⟩ := (failsToo error).mp outcome
      cases first
  | ok result =>
      obtain ⟨ids, replaced⟩ := replaces result outcome
      have own : Address.ofNat 4 ∈ result.branches.map (·.id) := ids ▸ List.mem_cons_self
      exact ⟨result, rfl, ids, replaced.found _ own⟩

end LayoutEngine
end LadderDiagram
