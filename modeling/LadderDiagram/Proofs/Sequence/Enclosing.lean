import LadderDiagram.Proofs.Layout.Tree
import LadderDiagram.Proofs.Sequence.Around
import LadderDiagram.Proofs.Sequence.Run

/-!
# The rails around a gap

A rail begins behind the marker that opens it and ends before the next marker or the end
marker of its branch; what stands on it is a sequence of the grammar.  This says nothing of a
walk.  The frames that a walk keeps are the rails that are open at the gap where it stands:
the one of depth `d` has been opened by the marker behind which `d` branches are open at the
gap, so the first frame belongs to the innermost rail.
-/

namespace LadderDiagram

/-- A list of drafts derives from the grammar of instructions and whole branches. -/
def IsSequence (source : List Draft) : Prop := ∃ tree : RailTree, tree.drafts = source

/--
The rail with a handle, from the place of the marker that opens it to the place of the marker
that ends it, with a sequence of the grammar between them.
-/
def SpansRail (source : List Draft) (id : BranchId) (start finish : Nat) : Prop :=
  ∃ (before after : List Draft) (opener ender : Draft) (inside : RailTree),
    source = before ++ opener :: (inside.drafts ++ ender :: after) ∧
      opener.openedRail? = some id ∧ ender.EndsRail ∧ start = before.length ∧
        finish = before.length + 1 + inside.drafts.length

/-- The innermost of the rails whose ends are as wanted, or none if there is no such rail. -/
inductive IsInnermost (source : List Draft) (wanted : Nat → Nat → Prop) : Option BranchId → Prop
  | rail {id : BranchId} {start finish : Nat} (spans : SpansRail source id start finish)
      (isWanted : wanted start finish)
      (latest : ∀ other first last, SpansRail source other first last → wanted first last →
        first ≤ start) : IsInnermost source wanted (some id)
  | main (outside : ∀ id start finish, SpansRail source id start finish → ¬ wanted start finish) :
      IsInnermost source wanted none

section Ends

variable {source : List Draft} {id : BranchId} {start finish : Nat}

theorem SpansRail.opens (spans : SpansRail source id start finish) :
    ∃ opener, source[start]? = some opener ∧ opener.openedRail? = some id := by
  obtain ⟨before, after, opener, ender, inside, rfl, opens, _, rfl, _⟩ := spans
  exact ⟨opener, getElem?_append_length before _ opener, opens⟩

theorem SpansRail.ends (spans : SpansRail source id start finish) :
    ∃ ender, source[finish]? = some ender ∧ ender.EndsRail := by
  obtain ⟨before, after, opener, ender, inside, rfl, _, ends, _, rfl⟩ := spans
  refine ⟨ender, ?_, ends⟩
  have stands := getElem?_append_length (before ++ opener :: inside.drafts) after ender
  rw [List.append_assoc, List.length_append, List.length_cons, ← Nat.add_assoc,
    Nat.add_right_comm] at stands
  exact stands

theorem IsInnermost.unique {wanted : Nat → Nat → Prop} {rail other : Option BranchId}
    (innermost : IsInnermost source wanted rail) (innermostToo : IsInnermost source wanted other) :
    rail = other := by
  cases innermost with
  | main outside =>
      cases innermostToo with
      | main _ => rfl
      | rail spans isWanted _ => exact absurd isWanted (outside _ _ _ spans)
  | @rail id start finish spans isWanted latest =>
      cases innermostToo with
      | main outside => exact absurd isWanted (outside _ _ _ spans)
      | @rail otherId first last spansToo isWantedToo latestToo =>
          obtain rfl : start = first := Nat.le_antisymm (latestToo _ _ _ spans isWanted)
            (latest _ _ _ spansToo isWantedToo)
          obtain ⟨opener, stands, opens⟩ := spans.opens
          obtain ⟨openerToo, standsToo, opensToo⟩ := spansToo.opens
          cases stands.symm.trans standsToo
          exact opens.symm.trans opensToo

/-- Whether a rail is wanted may be asked in any way that agrees on the rails there are. -/
theorem IsInnermost.congr {wanted asked : Nat → Nat → Prop} {rail : Option BranchId}
    (innermost : IsInnermost source wanted rail)
    (same : ∀ id start finish, SpansRail source id start finish →
      (wanted start finish ↔ asked start finish)) : IsInnermost source asked rail := by
  cases innermost with
  | main outside =>
      exact .main fun id start finish spans isAsked =>
        outside id start finish spans ((same _ _ _ spans).mpr isAsked)
  | rail spans isWanted latest =>
      exact .rail spans ((same _ _ _ spans).mp isWanted)
        fun other first last spansToo isAsked =>
          latest other first last spansToo ((same _ _ _ spansToo).mpr isAsked)

end Ends

/-! ### Runs that stay on their rail -/

theorem openAfter?_append (depth : Nat) (first last : List Draft) :
    openAfter? depth (first ++ last) = (openAfter? depth first).bind (openAfter? · last) := by
  induction first generalizing depth with
  | nil => rfl
  | cons draft rest ih =>
      cases draft with
      | instruction content => exact ih depth
      | branchStart id => exact ih (depth + 1)
      | branchNext id =>
          cases depth with
          | zero => rfl
          | succ depth => exact ih (depth + 1)
      | branchEnd id =>
          cases depth with
          | zero => rfl
          | succ depth => exact ih depth

theorem openAfter?_of_endsRail {ender : Draft} (ends : ender.EndsRail) (rest : List Draft) :
    openAfter? 0 (ender :: rest) = none := by
  cases ender with
  | instruction content => simp [Draft.EndsRail, Draft.kind] at ends
  | branchStart id => simp [Draft.EndsRail, Draft.kind] at ends
  | branchNext id => rfl
  | branchEnd id => rfl

/-- A run that stays on its rail does so inside further branches, which stay open. -/
theorem openAfter?_add {run : List Draft} {depth last : Nat}
    (stays : openAfter? depth run = some last) (outer : Nat) :
    openAfter? (depth + outer) run = some (last + outer) := by
  induction run generalizing depth with
  | nil =>
      cases stays
      rfl
  | cons draft rest ih =>
      cases draft with
      | instruction content => exact ih stays
      | branchStart id =>
          have later := @ih (depth + 1) stays
          rw [Nat.add_right_comm] at later
          exact later
      | branchNext id =>
          cases depth with
          | zero => cases stays
          | succ depth =>
              have later := @ih (depth + 1) stays
              rw [Nat.add_right_comm] at later ⊢
              exact later
      | branchEnd id =>
          cases depth with
          | zero => cases stays
          | succ depth =>
              rw [Nat.add_right_comm]
              exact ih stays

mutual

theorem RailTree.openAfter?_drafts (depth : Nat) :
    ∀ tree : RailTree, openAfter? depth tree.drafts = some depth
  | .nil => rfl
  | .instruction _ rest => rest.openAfter?_drafts depth
  | .branch id first further rest => by
      change openAfter? (depth + 1)
        (first.drafts ++ (further.drafts ++ .branchEnd id :: rest.drafts)) = some depth
      rw [openAfter?_append, first.openAfter?_drafts, Option.bind_some, openAfter?_append,
        further.openAfter?_drafts, Option.bind_some]
      exact rest.openAfter?_drafts depth

theorem FurtherRails.openAfter?_drafts (depth : Nat) :
    ∀ rails : FurtherRails, openAfter? (depth + 1) rails.drafts = some (depth + 1)
  | .nil => rfl
  | .rail id own others => by
      change openAfter? (depth + 1) (own.drafts ++ others.drafts) = some (depth + 1)
      rw [openAfter?_append, own.openAfter?_drafts, Option.bind_some]
      exact others.openAfter?_drafts depth

end

mutual

theorem RailTree.branchesAfter?_drafts (opened : List BranchId) :
    ∀ tree : RailTree, branchesAfter? opened tree.drafts = some opened
  | .nil => rfl
  | .instruction _ rest => rest.branchesAfter?_drafts opened
  | .branch id first further rest => by
      rw [RailTree.drafts, branchesAfter?_branchStart, branchesAfter?_append,
        first.branchesAfter?_drafts, Option.bind_some, branchesAfter?_append,
        further.branchesAfter?_drafts, Option.bind_some, branchesAfter?_branchEnd]
      exact rest.branchesAfter?_drafts opened

theorem FurtherRails.branchesAfter?_drafts (innermost : BranchId) (outer : List BranchId) :
    ∀ rails : FurtherRails,
      branchesAfter? (innermost :: outer) rails.drafts = some (innermost :: outer)
  | .nil => rfl
  | .rail id own others => by
      rw [FurtherRails.drafts, branchesAfter?_branchNext, branchesAfter?_append,
        own.branchesAfter?_drafts, Option.bind_some]
      exact others.branchesAfter?_drafts innermost outer

end

/-- The search for the end of a rail passes over a run that does not leave the rail. -/
theorem railLength?_append {depth later : Nat} {first : List Draft}
    (stays : openAfter? depth first = some later) (last : List Draft) :
    railLength? depth (first ++ last) = (railLength? later last).map (· + first.length) := by
  induction first generalizing depth with
  | nil =>
      cases stays
      exact Option.map_id'.symm
  | cons draft rest ih =>
      have passes {inner : Nat} (behind : openAfter? inner rest = some later) :
          (railLength? inner (rest ++ last)).map (· + 1) =
            (railLength? later last).map (· + (draft :: rest).length) := by
        rw [ih behind, Option.map_map]
        rfl
      cases draft with
      | instruction content => exact passes stays
      | branchStart id => exact passes stays
      | branchNext id =>
          cases depth with
          | zero => cases stays
          | succ depth => exact passes stays
      | branchEnd id =>
          cases depth with
          | zero => cases stays
          | succ depth => exact passes stays

theorem railLength?_of_endsRail {ender : Draft} (ends : ender.EndsRail) (rest : List Draft) :
    railLength? 0 (ender :: rest) = some 0 := by
  cases ender with
  | instruction content => simp [Draft.EndsRail, Draft.kind] at ends
  | branchStart id => simp [Draft.EndsRail, Draft.kind] at ends
  | branchNext id => rfl
  | branchEnd id => rfl

/-- The search for the end of a rail finds it. -/
theorem SpansRail.findRailEnd_eq {elements : List Element} {id : BranchId} {start finish : Nat}
    (spans : SpansRail (drafts elements) id start finish) :
    findRailEnd elements start = .ok finish := by
  obtain ⟨before, after, opener, ender, inside, split, _, ends, rfl, rfl⟩ := spans
  have behind : railLength? 0 (drafts (elements.drop (before.length + 1))) =
      some inside.drafts.length := by
    rw [drafts_drop_of_eq_append split, railLength?_append (inside.openAfter?_drafts 0),
      railLength?_of_endsRail ends, Option.map_some, Nat.zero_add]
  unfold findRailEnd railEndFrom
  rw [behind]

/-- A list of drafts derives from the grammar exactly if its markers pair up. -/
theorem isSequence_iff {source : List Draft} :
    IsSequence source ↔ branchesAfter? [] source = some [] := by
  constructor
  · rintro ⟨tree, rfl⟩
    exact tree.branchesAfter?_drafts []
  · intro closes
    obtain ⟨nodes, isTree⟩ := RungText.completes_of_branchesAfter? closes
    exact isTree.exists_railTree

/-! ### Open rails -/

/--
A marker has opened a rail that is still open behind a list of drafts, and a number of
branches have been opened on this rail since.
-/
def IsOpenRail (source : List Draft) (id : BranchId) (start depth : Nat) : Prop :=
  ∃ (before since : List Draft) (opener : Draft), source = before ++ opener :: since ∧
    opener.openedRail? = some id ∧ openAfter? 0 since = some depth ∧ start = before.length

theorem IsOpenRail.append {source more : List Draft} {id : BranchId} {start depth last : Nat}
    (isOpen : IsOpenRail source id start depth) (stays : openAfter? depth more = some last) :
    IsOpenRail (source ++ more) id start last := by
  obtain ⟨before, since, opener, rfl, opens, depth_eq, place⟩ := isOpen
  refine ⟨before, since ++ more, opener, by simp, opens, ?_, place⟩
  rw [openAfter?_append, depth_eq]
  exact stays

theorem IsOpenRail.start_lt {source : List Draft} {id : BranchId} {start depth : Nat}
    (isOpen : IsOpenRail source id start depth) : start < source.length := by
  obtain ⟨before, since, opener, rfl, _, _, rfl⟩ := isOpen
  simp

theorem isOpenRail_append_singleton {source : List Draft} {opener : Draft} {id : BranchId}
    (opens : opener.openedRail? = some id) :
    IsOpenRail (source ++ [opener]) id source.length 0 :=
  ⟨source, [], opener, rfl, opens, rfl, rfl⟩

/-- Each frame behind a list of drafts belongs to a rail that is open there. -/
theorem exists_isOpenRail (source : List Draft) {depth : Nat} {frame : OpenFrame}
    (isFrame : (framesAfter [] source)[depth]? = some frame) :
    ∃ start, IsOpenRail source frame.railId start depth := by
  induction source using List.reverseRecOn generalizing depth frame with
  | nil => cases isFrame
  | append_singleton source draft ih =>
      rw [framesAfter_append] at isFrame
      cases draft with
      | instruction content =>
          obtain ⟨start, isOpen⟩ := ih isFrame
          exact ⟨start, isOpen.append rfl⟩
      | branchStart id =>
          cases depth with
          | zero =>
              cases isFrame
              exact ⟨_, isOpenRail_append_singleton rfl⟩
          | succ depth =>
              obtain ⟨start, isOpen⟩ := ih isFrame
              exact ⟨start, isOpen.append rfl⟩
      | branchNext id =>
          change ((Draft.branchNext id).turn (framesAfter [] source))[depth]? =
            some frame at isFrame
          cases opened : framesAfter [] source with
          | nil =>
              rw [opened] at isFrame
              cases isFrame
          | cons innermost outer =>
              rw [opened] at isFrame ih
              cases depth with
              | zero =>
                  cases isFrame
                  exact ⟨_, isOpenRail_append_singleton rfl⟩
              | succ depth =>
                  obtain ⟨start, isOpen⟩ := @ih (depth + 1) _ isFrame
                  exact ⟨start, isOpen.append rfl⟩
      | branchEnd id =>
          have deeper : (framesAfter [] source)[depth + 1]? = some frame := by
            rw [← List.getElem?_tail]
            exact isFrame
          obtain ⟨start, isOpen⟩ := ih deeper
          exact ⟨start, isOpen.append rfl⟩

/-- Behind a whole annotated list no branch is open. -/
theorem framesAfter_of_annotate {source : List Draft} {elements : List Element}
    (annotates : annotate source = .ok elements) : framesAfter [] source = [] := by
  rw [← List.append_nil source] at annotates
  obtain ⟨own, others, state, passes, walksOn, _⟩ := WalkState.exists_passes annotates
  refine passes.frames_eq.symm.trans ?_
  cases opened : state.frames with
  | nil => rfl
  | cons frame outer => simp [WalkState.walk, opened] at walksOn

section Annotated

variable {first last : List Draft} {elements : List Element}
  (annotates : annotate (first ++ last) = .ok elements)
include annotates

/-- A rail that is open behind a list of drafts has a frame there. -/
theorem IsOpenRail.exists_frame {id : BranchId} {start depth : Nat}
    (isOpen : IsOpenRail first id start depth) :
    ∃ frame, (framesAfter [] first)[depth]? = some frame ∧ frame.railId = id := by
  obtain ⟨before, since, opener, rfl, opens, stays, _⟩ := isOpen
  obtain ⟨frame, outer, behind, sameRail⟩ : ∃ frame outer,
      opener.turn (framesAfter [] before) = frame :: outer ∧ frame.railId = id := by
    cases opener with
    | instruction content => cases opens
    | branchStart own =>
        cases opens
        exact ⟨_, _, rfl, rfl⟩
    | branchNext own =>
        cases opens
        rw [List.append_assoc, List.cons_append] at annotates
        obtain ⟨innermost, outer, opened⟩ := List.exists_cons_of_ne_nil
          (framesAfter_ne_nil_of_endsRail (Or.inl rfl) annotates)
        rw [opened]
        exact ⟨_, _, rfl, rfl⟩
    | branchEnd own => cases opens
  obtain ⟨frames, inside⟩ := @framesAfter_append_of_openAfter? _ [] _ stays (frame :: outer)
  refine ⟨frame, ?_, sameRail⟩
  rw [framesAfter_append]
  change (framesAfter (opener.turn (framesAfter [] before)) since)[depth]? = _
  rw [behind]
  rw [List.nil_append] at frames
  rw [frames, ← inside, List.getElem?_append_right (Nat.le_refl _), Nat.sub_self]
  rfl

omit annotates in
/-- Of two open rails the one with no branch opened on it since has been opened later. -/
theorem IsOpenRail.start_le {id other : BranchId} {start finish depth : Nat}
    (isOpen : IsOpenRail first id start 0) (isOpenToo : IsOpenRail first other finish depth) :
    finish ≤ start := by
  obtain ⟨before, since, opener, rfl, _, stays, rfl⟩ := isOpen
  obtain ⟨beforeToo, sinceToo, openerToo, split, opensToo, staysToo, rfl⟩ := isOpenToo
  by_contra later
  -- The later marker is among what has been read since the earlier one.
  obtain ⟨between, rfl⟩ := exists_between_of_append_eq split (Nat.lt_of_not_le later)
  obtain rfl : since = between ++ openerToo :: sinceToo := by
    simpa using split
  rw [openAfter?_append] at stays
  obtain ⟨around, _, staysOn⟩ := Option.bind_eq_some_iff.mp stays
  cases openerToo with
  | instruction content => cases opensToo
  | branchStart own =>
      have deeper := openAfter?_add staysToo (around + 1)
      rw [Nat.zero_add] at deeper
      cases deeper.symm.trans staysOn
  | branchNext own =>
      cases around with
      | zero => cases staysOn
      | succ around =>
          have deeper := openAfter?_add staysToo (around + 1)
          rw [Nat.zero_add] at deeper
          cases deeper.symm.trans staysOn
  | branchEnd own => cases opensToo

/-- Where the last rail that has been opened ends. -/
theorem IsOpenRail.exists_spansRail {id : BranchId} {start : Nat}
    (isOpen : IsOpenRail first id start 0) :
    ∃ finish, SpansRail (first ++ last) id start finish ∧ first.length ≤ finish := by
  obtain ⟨before, since, opener, rfl, opens, stays, rfl⟩ := isOpen
  -- The rail does not stay open up to the end.
  have leaves : openAfter? 0 (since ++ last) = none := by
    cases staysOn : openAfter? 0 (since ++ last) with
    | none => rfl
    | some depth =>
        have isOpen : IsOpenRail (before ++ opener :: since ++ last) id before.length depth :=
          ⟨before, since ++ last, opener, by simp, opens, staysOn, rfl⟩
        obtain ⟨frame, isFrame, _⟩ := isOpen.exists_frame (by
          rw [List.append_nil]
          exact annotates)
        rw [framesAfter_of_annotate annotates] at isFrame
        cases isFrame
  obtain ⟨run, ender, after, split, runStays, ends⟩ := exists_endsRail_of_openAfter? leaves
  have whole : before ++ opener :: since ++ last =
      before ++ [opener] ++ run ++ ender :: after := by
    rw [List.append_assoc, List.cons_append, split]
    simp
  obtain ⟨tree, rfl⟩ : IsSequence run := by
    have nested := wellNested_of_annotate annotates
    rw [whole] at nested
    exact isSequence_iff.mpr (nested.branchesAfter?_of_openAfter? runStays)
  refine ⟨_, ⟨before, after, opener, ender, tree, ?_, opens, ends, rfl, rfl⟩, ?_⟩
  · rw [whole]
    simp
  · by_contra ended
    -- The rail would have ended among what has been read since it was opened.
    obtain ⟨between, rfl⟩ := exists_between_of_append_eq split.symm (by
      rw [List.length_append, List.length_cons] at ended
      omega)
    rw [openAfter?_append, runStays, Option.bind_some, openAfter?_of_endsRail ends] at stays
    cases stays

omit annotates in
/-- A rail around a gap is open there. -/
theorem SpansRail.exists_isOpenRail {id : BranchId} {start finish : Nat}
    (spans : SpansRail (first ++ last) id start finish) (begun : start < first.length)
    (goesOn : first.length ≤ finish) : ∃ depth, IsOpenRail first id start depth := by
  obtain ⟨before, after, opener, ender, inside, split, opens, _, rfl, rfl⟩ := spans
  obtain ⟨since, rfl⟩ := exists_between_of_append_eq split.symm begun
  rw [List.append_assoc, List.cons_append, List.append_cancel_left_eq, List.cons.injEq] at split
  have shorter : since.length ≤ inside.drafts.length := by
    rw [List.length_append, List.length_cons] at goesOn
    omega
  obtain ⟨more, isMore⟩ := List.prefix_of_prefix_length_le (List.prefix_append since last)
    (split.2 ▸ List.prefix_append inside.drafts _) shorter
  have stays := inside.openAfter?_drafts 0
  rw [← isMore, openAfter?_append] at stays
  obtain ⟨depth, staysFirst, _⟩ := Option.bind_eq_some_iff.mp stays
  exact ⟨depth, before, since, opener, rfl, opens, staysFirst, rfl⟩

/-- The walk stands on the innermost of the rails around a gap. -/
theorem isInnermost_railAfter :
    IsInnermost (first ++ last)
      (fun start finish => start < first.length ∧ first.length ≤ finish) (railAfter first) := by
  unfold railAfter
  cases frames : framesAfter [] first with
  | nil =>
      refine .main fun id start finish spans around => ?_
      obtain ⟨depth, isOpen⟩ := spans.exists_isOpenRail around.1 around.2
      obtain ⟨frame, isFrame, _⟩ := isOpen.exists_frame annotates
      rw [frames] at isFrame
      cases isFrame
  | cons frame outer =>
      have innermost : (framesAfter [] first)[0]? = some frame := by rw [frames]; rfl
      obtain ⟨start, isOpen⟩ := exists_isOpenRail first innermost
      obtain ⟨finish, spans, goesOn⟩ := isOpen.exists_spansRail annotates
      refine .rail spans ⟨isOpen.start_lt, goesOn⟩ fun other begins ends spansToo around => ?_
      obtain ⟨depth, isOpenToo⟩ := spansToo.exists_isOpenRail around.1 around.2
      exact isOpen.start_le isOpenToo

end Annotated

end LadderDiagram
