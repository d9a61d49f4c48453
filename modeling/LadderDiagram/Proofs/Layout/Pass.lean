import LadderDiagram.Layout.Pass
import LadderDiagram.Proofs.Sequence.Nesting

/-!
# What a pass keeps track of

A pass over the markers of a rung keeps a stack of open branches, each of which points
to its record, and the records themselves.  Here the stack is shown to hold the
branches that are open, and the records to carry the handles of the markers met so
far, one for each.  Closing a branch rewrites records in place, which moves none.
-/

namespace LadderDiagram
namespace BranchPass

variable {α : Type} {pass : BranchPass α} {number : Address} {opened met : List BranchId}

/-- A pass over a rung with some branches open, innermost first, and some handles met. -/
structure Tracks (number : Address) (opened met : List BranchId) (pass : BranchPass α) :
    Prop where
  rung_eq : pass.rungNumber = some number
  numbered : ∀ record ∈ pass.records, record.rungNumber = number
  ids_eq : pass.records.map (·.id) = met
  opened_eq : pass.contexts.map (fun context => met[context.slot]?) = opened.map some
  children : ∀ context ∈ pass.contexts, ∀ slot ∈ context.children, slot < met.length

theorem tracks_start (pass : BranchPass α) (number : Address) :
    Tracks number [] [] (pass.start number) :=
  ⟨rfl, fun _ member => absurd member List.not_mem_nil, rfl, rfl,
    fun _ member => absurd member List.not_mem_nil⟩

/-- A change of the innermost branch that leaves its records alone. -/
theorem Tracks.mapTop (tracks : Tracks number opened met pass)
    {change : OpenContext α → OpenContext α}
    (slot : ∀ context, (change context).slot = context.slot)
    (children : ∀ context, (change context).children = context.children) :
    Tracks number opened met (pass.mapTop change) := by
  unfold BranchPass.mapTop
  cases within : pass.contexts with
  | nil => exact tracks
  | cons context outer =>
      have opened_eq := tracks.opened_eq
      have bounded := tracks.children
      rw [within] at opened_eq bounded
      refine ⟨tracks.rung_eq, tracks.numbered, tracks.ids_eq, ?_, ?_⟩
      · rw [List.map_cons, slot]
        exact opened_eq
      · intro other member
        rcases List.mem_cons.mp member with rfl | elsewhere
        · rw [children]
          exact bounded context List.mem_cons_self
        · exact bounded other (List.mem_cons_of_mem _ elsewhere)

/-- A context points to the same handle once further ones have been met. -/
theorem slots_append (contexts : List (OpenContext α)) {opened : List BranchId}
    (opened_eq : contexts.map (fun context => met[context.slot]?) = opened.map some)
    (more : List BranchId) :
    contexts.map (fun context => (met ++ more)[context.slot]?) = opened.map some := by
  rw [← opened_eq]
  apply List.map_congr_left
  intro context member
  have points : met[context.slot]? ∈ opened.map some := by
    rw [← opened_eq]
    exact List.mem_map_of_mem member
  obtain ⟨id, _, found⟩ := List.mem_map.mp points
  exact List.getElem?_append_left (List.getElem?_eq_some_iff.mp found.symm).1

theorem Tracks.openBranch [Scalar α] (tracks : Tracks number opened met pass) (id : BranchId)
    (element : Element) (opening : BranchOpening α) (sameRung : opening.rungNumber = number) :
    Tracks number (id :: opened) (met ++ [id]) (pass.openBranch id element opening) := by
  have length_eq : pass.records.length = met.length := by
    rw [← tracks.ids_eq, List.length_map]
  refine ⟨tracks.rung_eq, ?_, ?_, ?_, ?_⟩
  · intro record member
    rcases List.mem_append.mp member with old | new
    · exact tracks.numbered record old
    · rw [List.mem_singleton.mp new]
      exact sameRung
  · change (pass.records ++ [_]).map _ = _
    rw [List.map_append, tracks.ids_eq]
    rfl
  · change (met ++ [id])[pass.records.length]? :: pass.contexts.map _ = _
    rw [slots_append pass.contexts tracks.opened_eq, length_eq, List.getElem?_concat_length]
    rfl
  · intro context member
    rcases List.mem_cons.mp member with rfl | elsewhere
    · exact fun slot none => absurd none List.not_mem_nil
    · intro slot child
      rw [List.length_append]
      exact Nat.lt_add_right _ (tracks.children context elsewhere slot child)

/-- The record of an open branch. -/
theorem Tracks.exists_record (tracks : Tracks number (innermost :: opened) met pass) :
    ∃ context outer record, pass.contexts = context :: outer ∧
      pass.records[context.slot]? = some record ∧ record.id = innermost ∧
      record.rungNumber = number ∧
      outer.map (fun context => met[context.slot]?) = opened.map some := by
  have opened_eq := tracks.opened_eq
  cases within : pass.contexts with
  | nil =>
      rw [within] at opened_eq
      cases opened_eq
  | cons context outer =>
      rw [within, List.map_cons, List.map_cons] at opened_eq
      obtain ⟨points, others⟩ := List.cons.inj opened_eq
      rw [← tracks.ids_eq, List.getElem?_map] at points
      obtain ⟨record, found, isInnermost⟩ := Option.map_eq_some_iff.mp points
      exact ⟨context, outer, record, rfl, found, isInnermost,
        tracks.numbered record (List.mem_of_getElem? found), others⟩

theorem Tracks.nextRail [Scalar α] {innermost : BranchId}
    (tracks : Tracks number (innermost :: opened) met pass) (id : BranchId) (position : Address)
    (rowY : α → α) :
    ∃ child next, pass.nextRail id position rowY = .ok (child, next) ∧
      Tracks number (innermost :: opened) (met ++ [id]) next := by
  obtain ⟨context, outer, parent, within, found, isInnermost, sameRung, others⟩ :=
    tracks.exists_record
  have length_eq : pass.records.length = met.length := by
    rw [← tracks.ids_eq, List.length_map]
  have bounded := tracks.children
  rw [within] at bounded
  have points : met[context.slot]? = some innermost := by
    rw [← tracks.ids_eq, List.getElem?_map, found, Option.map_some, isInnermost]
  unfold BranchPass.nextRail
  simp only [within, found]
  refine ⟨_, _, rfl, tracks.rung_eq, ?_, ?_, ?_, ?_⟩
  · intro record member
    rcases List.mem_append.mp member with kept | new
    · rcases List.mem_or_eq_of_mem_set kept with old | rfl
      · exact tracks.numbered record old
      · exact sameRung
    · rw [List.mem_singleton.mp new]
      exact sameRung
  · have samePlace : (met.set context.slot parent.id) = met := by
      rw [isInnermost]
      exact set_of_getElem? points
    rw [List.map_append, List.map_set, tracks.ids_eq, samePlace]
    rfl
  · rw [List.map_cons, slots_append outer others, List.map_cons,
      List.getElem?_append_left (List.getElem?_eq_some_iff.mp points).1, points]
  · intro other member slot child
    rw [List.length_append]
    rcases List.mem_cons.mp member with rfl | elsewhere
    · rcases List.mem_append.mp child with old | new
      · exact Nat.lt_add_right _ (bounded context List.mem_cons_self slot old)
      · rw [List.mem_singleton.mp new, length_eq]
        exact Nat.lt_succ_self _
    · exact Nat.lt_add_right _ (bounded other (List.mem_cons_of_mem _ elsewhere) slot child)

/-! ### Closing a branch -/

theorem map_finishChildren [Scalar α] {β : Type} (part : Branch α → β)
    (kept : ∀ (record : Branch α) (position : Address) (x y : α),
      part { record with endPosition := position, endX := x, endY := y } = part record)
    (closingPosition : Address) (closing : BranchClosing α) (children : List (Branch α)) :
    (finishChildren closingPosition closing children).map part = children.map part := by
  induction children with
  | nil => rfl
  | cons child rest ih =>
      cases rest with
      | nil => simp [finishChildren, kept]
      | cons following rest =>
          rw [finishChildren, List.map_cons, kept, ih]
          rfl

/-- Records that are put into the places of records with the same part leave that part. -/
theorem map_setAll {β : Type} (part : Branch α → β) {slots : List Nat} {branches : List (Branch α)}
    {records : List (Branch α)}
    (same : branches.map (fun branch => some (part branch)) =
      slots.map fun slot => (records.map part)[slot]?) :
    (setAll records slots branches).map part = records.map part := by
  induction slots generalizing branches records with
  | nil =>
      cases branches with
      | nil => rfl
      | cons branch rest => cases same
  | cons slot slots ih =>
      cases branches with
      | nil => rfl
      | cons branch rest =>
          obtain ⟨here, others⟩ := List.cons.inj same
          have unchanged : (records.set slot branch).map part = records.map part := by
            rw [List.map_set]
            exact set_of_getElem? here.symm
          rw [setAll, ih, unchanged]
          rw [unchanged]
          exact others

/-- The records of further rails stand in the places that their branch remembers. -/
theorem map_childrenOf {β : Type} (part : Branch α → β) {context : OpenContext α}
    (bounded : ∀ slot ∈ context.children, slot < pass.records.length) :
    (pass.childrenOf context).map (fun branch => some (part branch)) =
      context.children.map fun slot => (pass.records.map part)[slot]? := by
  unfold childrenOf
  generalize context.children = children at bounded
  induction children with
  | nil => rfl
  | cons slot rest ih =>
      have here := bounded slot List.mem_cons_self
      have found : pass.records[slot]? = some pass.records[slot] := List.getElem?_eq_getElem here
      rw [List.filterMap_cons_some found, List.map_cons, List.map_cons, List.getElem?_map, found,
        ih fun other member => bounded other (List.mem_cons_of_mem _ member)]
      rfl

/-- Closing a branch changes no part of a record but where it ends. -/
theorem map_closed [Scalar α] {β : Type} (part : Branch α → β)
    (kept : ∀ (record : Branch α) (position : Address) (x y : α),
      part { record with endPosition := position, endX := x, endY := y } = part record)
    {context : OpenContext α} (bounded : ∀ slot ∈ context.children, slot < pass.records.length)
    {record : Branch α} (found : pass.records[context.slot]? = some record)
    (position : Address) (closing : BranchClosing α) :
    (setAll
      (pass.records.set context.slot
        { record with endPosition := position, endX := closing.endX, endY := closing.endY })
      context.children (finishChildren position closing (pass.childrenOf context))).map part =
      pass.records.map part := by
  have unchanged : (pass.records.set context.slot
      { record with
        endPosition := position, endX := closing.endX, endY := closing.endY }).map part =
        pass.records.map part := by
    rw [List.map_set, kept]
    apply set_of_getElem?
    rw [List.getElem?_map, found]
    rfl
  rw [map_setAll part, unchanged]
  rw [unchanged, ← map_childrenOf part bounded]
  apply map_finishChildren (fun branch => some (part branch))
  exact fun own place x y => congrArg some (kept own place x y)

theorem Tracks.closeBranch [Scalar α] {id : BranchId}
    (tracks : Tracks number (id :: opened) met pass) (position : Address)
    (closingOf : OpenContext α → Branch α → BranchClosing α) :
    ∃ closed context next, pass.closeBranch id position closingOf = (.ok (closed, context), next) ∧
      Tracks number opened met next := by
  obtain ⟨context, outer, record, within, found, rfl, sameRung, others⟩ := tracks.exists_record
  have length_eq : pass.records.length = met.length := by
    rw [← tracks.ids_eq, List.length_map]
  have bounded := tracks.children
  rw [within, ← length_eq] at bounded
  have inside := bounded context List.mem_cons_self
  unfold BranchPass.closeBranch
  simp only [within, found, ne_eq, not_true_eq_false, if_false]
  refine ⟨_, _, _, rfl, ?_⟩
  refine Tracks.mapTop ?_ ?_ ?_
  rotate_left
  · exact fun _ => rfl
  · exact fun _ => rfl
  refine ⟨tracks.rung_eq, ?_, ?_, others, ?_⟩
  · have rungs := map_closed (·.rungNumber) (fun _ _ _ _ => rfl) inside found position
      (closingOf context record)
    intro own member
    have numberMember := List.mem_map_of_mem (f := (·.rungNumber)) member
    rw [rungs] at numberMember
    obtain ⟨old, oldMember, same⟩ := List.mem_map.mp numberMember
    rw [← same]
    exact tracks.numbered old oldMember
  · rw [← tracks.ids_eq]
    exact map_closed (·.id) (fun _ _ _ _ => rfl) inside found position (closingOf context record)
  · rw [← length_eq]
    exact fun other member => bounded other (List.mem_cons_of_mem _ member)

end BranchPass
end LadderDiagram
