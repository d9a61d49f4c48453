import LadderDiagram.Proofs.Sequence.Nesting

/-!
# Ends of branches and rails

The end of a branch is searched by its handle, and the end of a rail by counting
brackets.  In a well-nested sequence both searches succeed, and what they cut out
pairs up by itself: it may stand on any rail.
-/

namespace LadderDiagram

/--
A list of drafts meets the end marker of an open branch: what stands before it pairs up
inside the branch alone, and what follows it pairs up without the branch.
-/
def MeetsEnd (id : BranchId) (inner outer final : List BranchId) (drafts : List Draft) : Prop :=
  ∃ inside after, drafts = inside ++ .branchEnd id :: after ∧ .branchEnd id ∉ inside ∧
    branchesAfter? (inner ++ [id]) inside = some [id] ∧
    branchesAfter? outer after = some final

theorem MeetsEnd.prepend {id : BranchId} {before inner outer final : List BranchId}
    {draft : Draft} {rest : List Draft} (meets : MeetsEnd id inner outer final rest)
    (other : .branchEnd id ≠ draft)
    (opens : ∀ inside, branchesAfter? (before ++ [id]) (draft :: inside) =
      branchesAfter? (inner ++ [id]) inside) :
    MeetsEnd id before outer final (draft :: rest) := by
  obtain ⟨inside, after, rfl, others, insidePairsUp, afterPairsUp⟩ := meets
  refine ⟨draft :: inside, after, rfl, ?_, (opens inside).trans insidePairsUp, afterPairsUp⟩
  exact fun member => (List.mem_cons.mp member).elim other others

/-- A branch that is open is closed, if it is not among those that stay open. -/
theorem exists_branch_end {rest : List Draft} (inner : List BranchId)
    {outer final : List BranchId} {id : BranchId}
    (pairsUp : branchesAfter? (inner ++ id :: outer) rest = some final)
    (closed : id ∉ final) (innerOthers : id ∉ inner) (once : .branchStart id ∉ rest) :
    MeetsEnd id inner outer final rest := by
  induction rest generalizing inner with
  | nil =>
      cases pairsUp
      exact absurd (List.mem_append_right _ List.mem_cons_self) closed
  | cons draft rest ih =>
      have onceLater : .branchStart id ∉ rest := fun later => once (List.mem_cons_of_mem _ later)
      cases draft with
      | instruction content =>
          exact (ih inner pairsUp innerOthers onceLater).prepend (by simp) fun _ => rfl
      | branchStart own =>
          have different : id ≠ own := by
            rintro rfl
            exact once List.mem_cons_self
          have meets := ih (own :: inner) pairsUp (by simp [different, innerOthers]) onceLater
          exact meets.prepend (by simp) fun _ => rfl
      | branchNext own =>
          have staysInside : branchesAfter? (inner ++ id :: outer) rest = some final := by
            obtain ⟨innermost, further, opened, restPairsUp⟩ :=
              exists_of_branchesAfter?_branchNext pairsUp
            rw [opened]
            exact restPairsUp
          apply (ih inner staysInside innerOthers onceLater).prepend (by simp)
          intro inside
          cases inner with
          | nil => rfl
          | cons innermost further => rfl
      | branchEnd own =>
          obtain ⟨further, opened, restPairsUp⟩ := exists_of_branchesAfter?_branchEnd pairsUp
          -- The marker closes the innermost branch, which may be the one that is looked for.
          cases inner with
          | nil =>
              obtain ⟨rfl, rfl⟩ := List.cons.inj opened
              exact ⟨[], rest, rfl, List.not_mem_nil, rfl, restPairsUp⟩
          | cons innermost inner =>
              obtain ⟨rfl, rfl⟩ := List.cons.inj opened
              have different : id ≠ innermost := fun same => innerOthers (same ▸ List.mem_cons_self)
              have innerOthersLater : id ∉ inner := fun member =>
                innerOthers (List.mem_cons_of_mem _ member)
              apply (ih inner restPairsUp innerOthersLater onceLater).prepend (by simp [different])
              exact fun inside => branchesAfter?_branchEnd innermost _

/-- A whole branch: its markers and all that stands between them pair up by themselves. -/
structure IsBranch (id : BranchId) (block : List Draft) : Prop where
  begins : ∃ inside, block = .branchStart id :: inside ++ [.branchEnd id]
  pairsUp : branchesAfter? [] block = some []

/-- The branch that opens at a start marker of a well-nested list of drafts. -/
theorem exists_isBranch_of_wellNested {first rest : List Draft} {id : BranchId}
    (nested : WellNested (first ++ .branchStart id :: rest)) :
    ∃ inside after, rest = inside ++ .branchEnd id :: after ∧ .branchEnd id ∉ inside ∧
      IsBranch id (.branchStart id :: inside ++ [.branchEnd id]) := by
  have closes := nested.closes
  rw [branchesAfter?_append] at closes
  obtain ⟨opened, _, pairsUp⟩ := Option.bind_eq_some_iff.mp closes
  have distinct := nested.distinct
  rw [openedIds_append, openedIds_branchStart] at distinct
  have once : .branchStart id ∉ rest := fun later =>
    (List.nodup_cons.mp (List.nodup_append.mp distinct).2.1).1 (mem_openedIds.mpr (Or.inl later))
  obtain ⟨inside, after, rfl, others, insidePairsUp, _⟩ :=
    exists_branch_end [] pairsUp List.not_mem_nil List.not_mem_nil once
  refine ⟨inside, after, rfl, others, ⟨inside, rfl⟩, ?_⟩
  rw [List.cons_append, branchesAfter?_branchStart, branchesAfter?_append]
  rw [List.nil_append] at insidePairsUp
  rw [insidePairsUp]
  exact branchesAfter?_branchEnd id []

/-- As many branches are closed as are opened, those with one handle among them. -/
theorem branchesAfter?_count {run : List Draft} {opened final : List BranchId}
    (pairsUp : branchesAfter? opened run = some final) (id : BranchId) :
    opened.count id + run.count (.branchStart id) = final.count id + run.count (.branchEnd id) := by
  induction run generalizing opened with
  | nil =>
      cases pairsUp
      rfl
  | cons draft rest ih =>
      cases draft with
      | instruction content => simpa using ih pairsUp
      | branchStart own =>
          have counted := @ih (own :: opened) pairsUp
          simp only [List.count_cons, beq_iff_eq, Draft.branchStart.injEq, reduceCtorEq,
            if_false] at counted ⊢
          omega
      | branchNext own =>
          obtain ⟨innermost, outer, rfl, restPairsUp⟩ :=
            exists_of_branchesAfter?_branchNext pairsUp
          simpa using ih restPairsUp
      | branchEnd own =>
          obtain ⟨outer, rfl, restPairsUp⟩ := exists_of_branchesAfter?_branchEnd pairsUp
          have counted := ih restPairsUp
          simp only [List.count_cons, beq_iff_eq, Draft.branchEnd.injEq, reduceCtorEq,
            if_false] at counted ⊢
          omega

theorem count_branchStart_le (drafts : List Draft) (id : BranchId) :
    drafts.count (.branchStart id) ≤ (openedIds drafts).count id := by
  unfold openedIds
  rw [List.count_filterMap]
  apply List.countP_mono_left
  intro draft _ isStart
  rw [beq_iff_eq.mp isStart]
  exact beq_iff_eq.mpr rfl

/-- No branch of a well-nested list of drafts is closed twice. -/
theorem WellNested.count_branchEnd_le_one {drafts : List Draft} (nested : WellNested drafts)
    (id : BranchId) : drafts.count (.branchEnd id) ≤ 1 := by
  have balanced := branchesAfter?_count nested.closes id
  have opensOnce : drafts.count (.branchStart id) ≤ 1 :=
    Nat.le_trans (count_branchStart_le drafts id)
      (List.nodup_iff_count_le_one.mp nested.distinct id)
  simp only [List.count_nil] at balanced
  omega

/-- A start marker of a well-nested list of drafts has one end marker, which stands behind it. -/
theorem WellNested.exists_end {drafts : List Draft} (nested : WellNested drafts) {start : Nat}
    {id : BranchId} (opens : drafts[start]? = some (.branchStart id)) :
    ∃ finish, start < finish ∧ IsBranch id ((drafts.take (finish + 1)).drop start) ∧
      ∀ place, drafts[place]? = some (.branchEnd id) ↔ place = finish := by
  obtain ⟨first, rest, rfl, rfl⟩ := exists_split_at_place opens
  obtain ⟨inside, after, rfl, _, isBranch⟩ := exists_isBranch_of_wellNested nested
  have regrouped : first ++ .branchStart id :: (inside ++ .branchEnd id :: after) =
      (first ++ .branchStart id :: inside) ++ .branchEnd id :: after := by simp
  have finish_eq : first.length + 1 + inside.length =
      (first ++ .branchStart id :: inside).length := by
    simp
    omega
  refine ⟨first.length + 1 + inside.length, by omega, ?_, ?_⟩
  · have block : (first ++ .branchStart id :: (inside ++ .branchEnd id :: after)).take
        (first.length + 1 + inside.length + 1) =
        first ++ (.branchStart id :: inside ++ [.branchEnd id]) := by
      have upToEnd : first ++ .branchStart id :: (inside ++ .branchEnd id :: after) =
          (first ++ (.branchStart id :: inside ++ [.branchEnd id])) ++ after := by simp
      rw [upToEnd]
      apply List.take_left'
      simp
      omega
    rw [block, List.drop_left]
    exact isBranch
  · intro place
    rw [regrouped, finish_eq]
    have once := nested.count_branchEnd_le_one id
    rw [regrouped] at once
    exact getElem?_eq_some_iff_of_count_le_one once

/-- An end marker of a well-nested list of drafts has a start marker. -/
theorem WellNested.exists_start {drafts : List Draft} (nested : WellNested drafts) {finish : Nat}
    {id : BranchId} (closes : drafts[finish]? = some (.branchEnd id)) :
    ∃ start : Nat, drafts[start]? = some (.branchStart id) := by
  have balanced := branchesAfter?_count nested.closes id
  have ends : 0 < drafts.count (.branchEnd id) :=
    List.count_pos_iff.mpr (List.mem_of_getElem? closes)
  rw [List.count_nil] at balanced
  have starts : 0 < drafts.count (.branchStart id) := by omega
  exact List.getElem?_of_mem (List.count_pos_iff.mp starts)

/-- Behind the marker at which a sequence is cut stands the rest of it. -/
theorem drafts_drop_of_eq_append {elements : List Element} {first rest : List Draft}
    {marker : Draft} (split : drafts elements = first ++ marker :: rest) :
    drafts (elements.drop (first.length + 1)) = rest := by
  have dropped : drafts (elements.drop (first.length + 1)) =
      (drafts elements).drop (first.length + 1) := List.map_drop
  rw [dropped, split, ← List.drop_drop, List.drop_left]
  rfl

/-- In a well-nested sequence the search for the end of a branch finds the whole branch. -/
theorem findBranchEnd_of_wellNested {elements : List Element} {start : Nat} {id : BranchId}
    (nested : WellNested (drafts elements))
    (opens : (drafts elements)[start]? = some (.branchStart id)) :
    ∃ first block last, drafts elements = first ++ block ++ last ∧ first.length = start ∧
      findBranchEnd elements start = .ok (start + block.length - 1) ∧ IsBranch id block := by
  obtain ⟨first, rest, split, rfl⟩ := exists_split_at_place opens
  have dropped : (elements.drop (first.length + 1)).map Element.draft = rest :=
    drafts_drop_of_eq_append split
  rw [split] at nested
  obtain ⟨inside, after, rfl, others, isBranch⟩ := exists_isBranch_of_wellNested nested
  refine ⟨first, .branchStart id :: inside ++ [.branchEnd id], after, ?_, rfl, ?_, isBranch⟩
  · simpa using split
  · have behind : ((elements.drop (first.length + 1)).map Element.draft).findIdx?
        (fun draft => draft == .branchEnd id) = some inside.length := by
      rw [dropped, List.findIdx?_append, List.findIdx?_eq_none_iff.mpr, List.findIdx?_cons]
      · simp
      · intro draft member
        simpa using fun same : draft = .branchEnd id => others (same ▸ member)
    have marker : elements[first.length]?.bind Element.branchId = some id := by
      obtain ⟨element, found, isStart⟩ : ∃ element, elements[first.length]? = some element ∧
          element.draft = .branchStart id := by
        simpa [drafts, List.getElem?_map] using opens
      simp [found, Element.branchId, isStart, Draft.markerId?]
    have samePlace : (fun element : Element =>
        element.kind == .branchEnd && element.branchId == some id) =
          (fun draft => draft == .branchEnd id) ∘ Element.draft := by
      funext element
      rw [Bool.eq_iff_iff]
      unfold Element.kind Element.branchId Function.comp
      cases element.draft <;> simp [Draft.kind, Draft.markerId?]
    rw [List.findIdx?_map] at behind
    simp only [findBranchEnd, marker, samePlace, behind]
    congr 1
    simp
    omega

/-! ### The branch of a handle -/

/-- A branch with a handle stands in a sequence, from its start marker to its end marker. -/
structure HasBranch (elements : List Element) (id : BranchId) (start finish : Nat) : Prop where
  begins : (drafts elements)[start]? = some (.branchStart id)
  ends : (drafts elements)[finish]? = some (.branchEnd id)

section Handles

variable {elements : List Element} {id : BranchId} {start finish : Nat}
  {first block last : List Draft}

theorem length_pos_of_isBranch (isBranch : IsBranch id block) : 0 < block.length := by
  obtain ⟨inside, rfl⟩ := isBranch.begins
  exact Nat.zero_lt_succ _

theorem hasBranch_of_split (split : drafts elements = first ++ block ++ last)
    (isBranch : IsBranch id block) :
    HasBranch elements id first.length (first.length + block.length - 1) := by
  obtain ⟨inside, rfl⟩ := isBranch.begins
  constructor
  · rw [split]
    simp
  · have regrouped : drafts elements = (first ++ .branchStart id :: inside) ++
        .branchEnd id :: last := by
      rw [split]
      simp
    have place : first.length + (.branchStart id :: inside ++ [Draft.branchEnd id]).length - 1 =
        (first ++ .branchStart id :: inside).length := by
      rw [List.length_append, List.length_append, List.length_cons, List.length_singleton]
      rfl
    rw [regrouped, place]
    exact getElem?_append_length _ _ _

/-- A branch ends at the one place where its end marker stands. -/
theorem HasBranch.finish_unique (nested : WellNested (drafts elements))
    (has : HasBranch elements id start finish) {other last : Nat}
    (hasToo : HasBranch elements id other last) : last = finish := by
  obtain ⟨_, _, _, isEnd⟩ := nested.exists_end has.begins
  exact ((isEnd last).mp hasToo.ends).trans ((isEnd finish).mp has.ends).symm

/-- A branch starts at the one place where its start marker stands. -/
theorem HasBranch.start_unique (nested : WellNested (drafts elements))
    (has : HasBranch elements id start finish) {other : Nat}
    (starts : (drafts elements)[other]? = some (.branchStart id)) : other = start := by
  have once : (drafts elements).count (.branchStart id) ≤ 1 :=
    Nat.le_trans (count_branchStart_le _ id) (List.nodup_iff_count_le_one.mp nested.distinct id)
  obtain ⟨first, last, split, rfl⟩ := exists_split_at_place has.begins
  rw [split] at starts once
  exact (getElem?_eq_some_iff_of_count_le_one once).mp starts

/-- A handle names one branch only. -/
theorem HasBranch.unique (nested : WellNested (drafts elements))
    (has : HasBranch elements id start finish) {other last : Nat}
    (hasToo : HasBranch elements id other last) : other = start ∧ last = finish :=
  ⟨has.start_unique nested hasToo.begins, has.finish_unique nested hasToo⟩

theorem HasBranch.findBranchEnd_eq (nested : WellNested (drafts elements))
    (has : HasBranch elements id start finish) : findBranchEnd elements start = .ok finish := by
  obtain ⟨first, block, last, split, rfl, finds, isBranch⟩ :=
    findBranchEnd_of_wellNested nested has.begins
  rw [finds, has.finish_unique nested (hasBranch_of_split split isBranch)]

theorem HasBranch.exists_split (nested : WellNested (drafts elements))
    (has : HasBranch elements id start finish) :
    ∃ first block last, drafts elements = first ++ block ++ last ∧ IsBranch id block ∧
      first.length = start ∧ first.length + block.length = finish + 1 := by
  obtain ⟨first, block, last, split, rfl, _, isBranch⟩ :=
    findBranchEnd_of_wellNested nested has.begins
  refine ⟨first, block, last, split, isBranch, rfl, ?_⟩
  have ends := has.finish_unique nested (hasBranch_of_split split isBranch)
  obtain ⟨inside, rfl⟩ := isBranch.begins
  rw [List.length_append, List.length_cons, List.length_singleton] at ends ⊢
  omega

end Handles

/-! ### Rails -/

/--
What a search for the end of a rail passes over pairs up inside the branch of
that rail; as many branches as were entered before are left again.
-/
theorem branchesAfter?_take_railLength {drafts : List Draft} (inner : List BranchId)
    {outer final : List BranchId} {innermost : BranchId} {length : Nat}
    (pairsUp : branchesAfter? (inner ++ innermost :: outer) drafts = some final)
    (ends : railLength? inner.length drafts = some length) :
    length ≤ drafts.length ∧ branchesAfter? (inner ++ [innermost]) (drafts.take length) =
      some [innermost] := by
  induction drafts generalizing inner length with
  | nil => cases ends
  | cons draft rest ih =>
      cases draft with
      | instruction content =>
          obtain ⟨before, endsLater, rfl⟩ := Option.map_eq_some_iff.mp ends
          obtain ⟨bounded, taken⟩ := ih _ pairsUp endsLater
          exact ⟨Nat.succ_le_succ bounded, taken⟩
      | branchStart id =>
          obtain ⟨before, endsLater, rfl⟩ := Option.map_eq_some_iff.mp ends
          obtain ⟨bounded, taken⟩ := ih (id :: inner) pairsUp endsLater
          exact ⟨Nat.succ_le_succ bounded, taken⟩
      | branchNext id =>
          cases inner with
          | nil =>
              cases ends
              exact ⟨Nat.zero_le _, rfl⟩
          | cons own inner =>
              obtain ⟨before, endsLater, rfl⟩ := Option.map_eq_some_iff.mp ends
              obtain ⟨bounded, taken⟩ := ih (own :: inner) pairsUp endsLater
              exact ⟨Nat.succ_le_succ bounded, taken⟩
      | branchEnd id =>
          cases inner with
          | nil =>
              cases ends
              exact ⟨Nat.zero_le _, rfl⟩
          | cons own inner =>
              obtain ⟨before, endsLater, rfl⟩ := Option.map_eq_some_iff.mp ends
              obtain ⟨further, opened, restPairsUp⟩ :=
                exists_of_branchesAfter?_branchEnd pairsUp
              obtain ⟨rfl, rfl⟩ := List.cons.inj opened
              obtain ⟨bounded, taken⟩ := ih _ restPairsUp endsLater
              refine ⟨Nat.succ_le_succ bounded, ?_⟩
              rw [List.take_succ_cons, List.cons_append, branchesAfter?_branchEnd]
              exact taken

/-- A branch that is closed in the end has a marker at which its current rail ends. -/
theorem exists_railLength {drafts : List Draft} (inner : List BranchId) {outer : List BranchId}
    {innermost : BranchId}
    (pairsUp : branchesAfter? (inner ++ innermost :: outer) drafts = some []) :
    ∃ length, railLength? inner.length drafts = some length := by
  induction drafts generalizing inner with
  | nil => simp at pairsUp
  | cons draft rest ih =>
      cases draft with
      | instruction content =>
          obtain ⟨length, ends⟩ := ih _ pairsUp
          exact ⟨length + 1, by simp [railLength?, Draft.kind, ends]⟩
      | branchStart id =>
          obtain ⟨length, ends⟩ := ih (id :: inner) pairsUp
          exact ⟨length + 1, by simpa [railLength?, Draft.kind] using ends⟩
      | branchNext id =>
          cases inner with
          | nil => exact ⟨0, rfl⟩
          | cons own inner =>
              obtain ⟨length, ends⟩ := ih (own :: inner) pairsUp
              exact ⟨length + 1, by simpa [railLength?, Draft.kind] using ends⟩
      | branchEnd id =>
          cases inner with
          | nil => exact ⟨0, rfl⟩
          | cons own inner =>
              obtain ⟨further, opened, restPairsUp⟩ :=
                exists_of_branchesAfter?_branchEnd pairsUp
              obtain ⟨rfl, rfl⟩ := List.cons.inj opened
              obtain ⟨length, ends⟩ := ih _ restPairsUp
              exact ⟨length + 1, by simpa [railLength?, Draft.kind] using ends⟩

/--
In a well-nested sequence the search for the end of a rail finds the whole rail,
and the branches open at its end are those that are open behind its marker.
-/
theorem findRailEnd_of_wellNested {elements : List Element} {start : Nat} {marker : Draft}
    (nested : WellNested (drafts elements)) (opens : (drafts elements)[start]? = some marker)
    (isMarker : marker.openedRail?.isSome) :
    ∃ first inside last opened innermost outer,
      drafts elements = first ++ marker :: inside ++ last ∧ first.length = start ∧
      findRailEnd elements start = .ok (start + 1 + inside.length) ∧
      branchesAfter? [] first = some opened ∧
      branchesAfter? opened [marker] = some (innermost :: outer) ∧
      branchesAfter? (innermost :: outer) inside = some (innermost :: outer) := by
  obtain ⟨first, rest, split, rfl⟩ := exists_split_at_place opens
  have closes := nested.closes
  rw [split, branchesAfter?_append] at closes
  obtain ⟨opened, before, pairsUp⟩ := Option.bind_eq_some_iff.mp closes
  -- Behind the marker some branch is open: its own, or the one whose further rail it opens.
  obtain ⟨innermost, outer, behind, restPairsUp⟩ : ∃ innermost outer,
      branchesAfter? opened [marker] = some (innermost :: outer) ∧
        branchesAfter? (innermost :: outer) rest = some [] := by
    cases marker with
    | instruction content => cases isMarker
    | branchStart id => exact ⟨id, opened, rfl, pairsUp⟩
    | branchNext id =>
        obtain ⟨innermost, outer, rfl, restPairsUp⟩ := exists_of_branchesAfter?_branchNext pairsUp
        exact ⟨innermost, outer, rfl, restPairsUp⟩
    | branchEnd id => cases isMarker
  obtain ⟨length, ends⟩ := exists_railLength [] restPairsUp
  obtain ⟨lengthBounded, taken⟩ :=
    branchesAfter?_take_railLength [] restPairsUp ends
  refine ⟨first, rest.take length, rest.drop length, opened, innermost, outer,
    ?_, rfl, ?_, before, behind, branchesAfter?_under taken outer⟩
  · rw [List.append_assoc, List.cons_append, List.take_append_drop]
    exact split
  · have endsHere : railLength? 0 (drafts (elements.drop (first.length + 1))) = some length := by
      rw [drafts_drop_of_eq_append split]
      exact ends
    simp only [findRailEnd, railEndFrom, endsHere, List.length_take,
      Nat.min_eq_left lengthBounded]

/-! ### Runs of whole branches -/

theorem isSelfContainedRun_iff {elements : List Element} {start finish : Nat} :
    isSelfContainedRun elements start finish = true ↔
      openAfter? 0 (((drafts elements).take finish).drop start) = some 0 := by
  unfold isSelfContainedRun drafts
  rw [List.map_drop, List.map_take]
  exact beq_iff_eq

/-- A run that is counted as whole branches of one rail pairs up by itself. -/
theorem branchesAfter?_of_openAfter? {run : List Draft} (inner : List BranchId)
    {outer final : List BranchId} {depth : Nat}
    (pairsUp : branchesAfter? (inner ++ outer) run = some final)
    (counts : openAfter? inner.length run = some depth) :
    ∃ left, left.length = depth ∧ branchesAfter? inner run = some left := by
  induction run generalizing inner with
  | nil =>
      cases counts
      exact ⟨inner, rfl, rfl⟩
  | cons draft rest ih =>
      cases draft with
      | instruction content => exact ih _ pairsUp counts
      | branchStart id => exact ih (id :: inner) pairsUp counts
      | branchNext id =>
          cases inner with
          | nil => cases counts
          | cons innermost inner => exact ih (innermost :: inner) pairsUp counts
      | branchEnd id =>
          cases inner with
          | nil => cases counts
          | cons innermost inner =>
              obtain ⟨further, opened, restPairsUp⟩ :=
                exists_of_branchesAfter?_branchEnd pairsUp
              obtain ⟨rfl, rfl⟩ := List.cons.inj opened
              rw [branchesAfter?_branchEnd]
              exact ih _ restPairsUp counts

/-- A part of a well-nested list that is counted as whole branches pairs up by itself. -/
theorem WellNested.branchesAfter?_of_openAfter? {first run last : List Draft}
    (nested : WellNested (first ++ run ++ last)) (whole : openAfter? 0 run = some 0) :
    branchesAfter? [] run = some [] := by
  have closes := nested.closes
  rw [List.append_assoc, branchesAfter?_append] at closes
  obtain ⟨opened, _, fromRun⟩ := Option.bind_eq_some_iff.mp closes
  rw [branchesAfter?_append] at fromRun
  obtain ⟨_, pairsUp, _⟩ := Option.bind_eq_some_iff.mp fromRun
  obtain ⟨left, none, ownPairsUp⟩ := LadderDiagram.branchesAfter?_of_openAfter? [] pairsUp whole
  rw [ownPairsUp, List.eq_nil_of_length_eq_zero none]

/-- A run of whole branches pairs up by itself. -/
theorem branchesAfter?_of_isSelfContainedRun {elements : List Element}
    (nested : WellNested (drafts elements)) {start finish : Nat}
    (whole : isSelfContainedRun elements start finish) :
    branchesAfter? [] (((drafts elements).take finish).drop start) = some [] := by
  apply WellNested.branchesAfter?_of_openAfter? _ (isSelfContainedRun_iff.mp whole)
  · exact ((drafts elements).take finish).take start
  · exact (drafts elements).drop finish
  · rw [List.take_append_drop, List.take_append_drop]
    exact nested

end LadderDiagram
