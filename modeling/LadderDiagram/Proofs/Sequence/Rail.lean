import LadderDiagram.Proofs.Sequence.Gap
import Mathlib.Data.List.Perm.Subperm

/-!
# Rails seen from the drafts

The rail on which a gap lies can be read off the drafts before it: they say which branches
are open there, and which rail of each of them is the current one.  An instruction among them
makes no difference, so an edit that takes instructions out or puts them in leaves the gaps
of what remains on their rails.
-/

namespace LadderDiagram

/-- The open branches behind a draft, with their current rails. -/
def Draft.turn (frames : List OpenFrame) : Draft → List OpenFrame
  | .instruction _ => frames
  | .branchStart id => ⟨id, id⟩ :: frames
  | .branchNext id =>
      match frames with
      | [] => []
      | frame :: outer => { frame with railId := id } :: outer
  | .branchEnd _ => frames.tail

/-- The open branches behind a list of drafts. -/
def framesAfter (frames : List OpenFrame) (source : List Draft) : List OpenFrame :=
  source.foldl Draft.turn frames

/-- The rail to which a list of drafts leads. -/
def railAfter (source : List Draft) : Option BranchId :=
  (framesAfter [] source).head?.map (·.railId)

theorem framesAfter_append (frames : List OpenFrame) (first last : List Draft) :
    framesAfter frames (first ++ last) = framesAfter (framesAfter frames first) last :=
  List.foldl_append

/-- Whether some draft opens a rail. -/
def Opens (source : List Draft) (rail : Option BranchId) : Prop :=
  ∃ id ∈ openedIds source, some id = rail

theorem opens_some_iff {source : List Draft} {id : BranchId} :
    Opens source (some id) ↔ id ∈ openedIds source := by
  simp [Opens]

theorem not_opens_none {source : List Draft} : ¬ Opens source none := by
  simp [Opens]

/-! ### The rails of the open branches -/

/-- The current rails of some open branches, the innermost one first. -/
def rails (frames : List OpenFrame) : List BranchId := frames.map (·.railId)

theorem rails_turn (draft : Draft) (frames : List OpenFrame) :
    (rails (draft.turn frames)).Sublist (draft.openedRail?.toList ++ rails frames) := by
  cases draft with
  | instruction content => exact List.Sublist.refl _
  | branchStart id => exact List.Sublist.refl _
  | branchNext id =>
      cases frames with
      | nil => exact List.nil_sublist _
      | cons frame outer => exact (List.sublist_cons_self frame.railId (rails outer)).cons_cons id
  | branchEnd id =>
      cases frames with
      | nil => exact List.Sublist.refl _
      | cons frame outer => exact List.sublist_cons_self frame.railId (rails outer)

/-- Every current rail is one that was current before or one that was opened, and only once. -/
theorem rails_framesAfter (frames : List OpenFrame) (source : List Draft) :
    (rails (framesAfter frames source)).Subperm (openedIds source ++ rails frames) := by
  induction source generalizing frames with
  | nil => exact List.Subperm.refl _
  | cons draft rest ih =>
      refine (ih (draft.turn frames)).trans ?_
      rw [WalkState.openedIds_cons]
      have turned := (List.subperm_append_left (openedIds rest)).mpr
        (rails_turn draft frames).subperm
      refine turned.trans (List.Perm.subperm ?_)
      rw [← List.append_assoc]
      exact List.perm_append_comm.append_right _

namespace WalkState

variable {state next last : WalkState} {draft : Draft} {element : Element}

theorem frames_of_step (steps : state.step draft = .ok (element, next)) :
    next.frames = draft.turn state.frames := by
  cases stepsTo_of_step steps with
  | instruction content => rfl
  | branchStart free => rfl
  | branchNext opened free => simp only [Draft.turn, opened]
  | branchEnd opened same => simp only [Draft.turn, opened, List.tail_cons]

theorem Passes.frames_eq {first : List Draft} {own : List Element}
    (passes : state.Passes first own last) : last.frames = framesAfter state.frames first := by
  induction passes with
  | nil state => rfl
  | @cons state next last draft rest element others steps _ ih =>
      rw [ih, frames_of_step steps]
      rfl

end WalkState

section Annotated

variable {source : List Draft} {elements : List Element}

theorem railAtGap_eq_railAfter (annotates : annotate source = .ok elements) {gap : Nat}
    (within : gap ≤ source.length) : railAtGap elements gap = railAfter (source.take gap) := by
  rw [← List.take_append_drop gap source] at annotates
  obtain ⟨own, _, state, passes, _, _, rail, _⟩ := exists_passes_of_annotate annotates
  rw [List.length_take_of_le within] at rail
  rw [rail, WalkState.railId, passes.frames_eq]
  rfl

/-- A gap is on the main rail or on one that some marker opens. -/
theorem railAtGap_of_annotate (annotates : annotate source = .ok elements) {gap : Nat}
    (within : gap ≤ source.length) :
    railAtGap elements gap = none ∨ Opens source (railAtGap elements gap) := by
  rw [railAtGap_eq_railAfter annotates within, railAfter]
  have current := (rails_framesAfter [] (source.take gap)).subset
  cases frames : framesAfter [] (source.take gap) with
  | nil => exact Or.inl rfl
  | cons frame outer =>
      rw [frames] at current
      have opened : frame.railId ∈ openedIds (source.take gap) := by
        simpa [rails] using current (List.mem_cons_self)
      refine Or.inr ⟨frame.railId, ?_, rfl⟩
      rw [← List.take_append_drop gap source, openedIds_append]
      exact List.mem_append_left _ opened

/-- A gap that is counted with an element is one less without it if it is behind the element. -/
def gapWithout (place gap : Nat) : Nat := if place < gap then gap - 1 else gap

theorem gapWithout_le {count place gap : Nat} (bounded : place < count) (within : gap ≤ count) :
    gapWithout place gap ≤ count - 1 := by
  unfold gapWithout
  split <;> omega

/-- Taking an instruction out leaves the gaps on their rails. -/
theorem railAtGap_eraseIdx (annotates : annotate source = .ok elements) {place : Nat}
    {content : Instruction} (found : source[place]? = some (.instruction content))
    {remaining : List Element} (annotatesRest : annotate (source.eraseIdx place) = .ok remaining)
    {gap : Nat} (within : gap ≤ source.length) :
    railAtGap remaining (gapWithout place gap) = railAtGap elements gap := by
  obtain ⟨bounded, _⟩ := List.getElem?_eq_some_iff.mp found
  have restWithin : gapWithout place gap ≤ (source.eraseIdx place).length := by
    rw [List.length_eraseIdx_of_lt bounded]
    exact gapWithout_le bounded within
  rw [railAtGap_eq_railAfter annotates within, railAtGap_eq_railAfter annotatesRest restWithin]
  obtain ⟨first, last, rfl, rfl⟩ := exists_split_at_place found
  rw [eraseIdx_append_length]
  unfold gapWithout
  split
  next behind =>
    -- Behind the instruction the gap has the same drafts before it but for the instruction.
    obtain ⟨distance, rfl⟩ := Nat.exists_eq_add_of_lt behind
    have all : (first ++ .instruction content :: last).take (first.length + distance + 1) =
        first ++ .instruction content :: last.take distance := by
      rw [Nat.add_assoc, List.take_length_add_append, List.take_succ_cons]
    rw [all, Nat.add_sub_cancel, List.take_length_add_append]
    unfold railAfter
    rw [framesAfter_append, framesAfter_append]
    rfl
  next before =>
    have upTo : gap ≤ first.length := Nat.le_of_not_lt before
    rw [List.take_append_of_le_length upTo, List.take_append_of_le_length upTo]

end Annotated

end LadderDiagram
