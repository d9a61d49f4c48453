import LadderDiagram.Proofs.RungText.Printing
import LadderDiagram.Proofs.Sequence.Tree

/-!
# Trees of sequences

A sequence whose markers pair up has a tree, which forgets the handles and nothing else.
What is written for the sequence, draft by draft, is the text of its tree, and the
sequence that is made of a tree has that tree.
-/

namespace LadderDiagram
namespace RungText

mutual

/-- A list of nodes is what a run of drafts is when its handles are forgotten. -/
inductive IsTreeOf : List Draft → List Node → Prop
  | nil : IsTreeOf [] []
  | instruction (content : Instruction) {drafts : List Draft} {nodes : List Node} :
      IsTreeOf drafts nodes →
        IsTreeOf (.instruction content :: drafts) (.instruction content :: nodes)
  | branch (id : BranchId) {inner drafts : List Draft} {rails : List (List Node)}
      {nodes : List Node} :
      AreRailsOf inner rails → IsTreeOf drafts nodes →
        IsTreeOf (.branchStart id :: (inner ++ .branchEnd id :: drafts)) (.branch rails :: nodes)

/-- The rails of a branch, between which its next markers stand. -/
inductive AreRailsOf : List Draft → List (List Node) → Prop
  | last {drafts : List Draft} {rail : List Node} : IsTreeOf drafts rail → AreRailsOf drafts [rail]
  | further (id : BranchId) {first others : List Draft} {rail : List Node}
      {rails : List (List Node)} :
      IsTreeOf first rail → AreRailsOf others rails →
        AreRailsOf (first ++ .branchNext id :: others) (rail :: rails)

end

/-! ### The text of a sequence -/

/-- The characters that are written for a run of drafts. -/
def draftChars (drafts : List Draft) : List Char := drafts.flatMap fun draft => draft.text.toList

theorem sequenceText_eq (elements : List Element) :
    sequenceText elements = String.ofList (draftChars (drafts elements)) ++ ";" := by
  unfold sequenceText draftChars drafts
  congr 1
  apply String.toList_inj.mp
  rw [String.toList_join, String.toList_ofList, List.flatMap_map, List.flatMap_map]

@[simp] theorem draftChars_cons (draft : Draft) (rest : List Draft) :
    draftChars (draft :: rest) = draft.text.toList ++ draftChars rest := rfl

@[simp] theorem draftChars_append (first second : List Draft) :
    draftChars (first ++ second) = draftChars first ++ draftChars second :=
  List.flatMap_append

theorem railsText_cons (rail : List Node) {rails : List (List Node)} (nonempty : rails ≠ []) :
    railsText (rail :: rails) = railText rail ++ "," ++ railsText rails := by
  cases rails with
  | nil => exact absurd rfl nonempty
  | cons => rfl

theorem AreRailsOf.ne_nil {drafts : List Draft} {rails : List (List Node)}
    (areRails : AreRailsOf drafts rails) : rails ≠ [] := by
  cases areRails with
  | last => exact List.cons_ne_nil _ _
  | further => exact List.cons_ne_nil _ _

mutual

theorem IsTreeOf.draftChars_eq {drafts : List Draft} {nodes : List Node} :
    IsTreeOf drafts nodes → draftChars drafts = (railText nodes).toList
  | .nil => rfl
  | .instruction content tree => by
      rw [draftChars_cons, tree.draftChars_eq, railText, String.toList_append]
      rfl
  | .branch id rails tree => by
      rw [draftChars_cons, draftChars_append, draftChars_cons, rails.draftChars_eq,
        tree.draftChars_eq, railText, Node.text]
      simp only [String.toList_append, List.append_assoc]
      rfl

theorem AreRailsOf.draftChars_eq {drafts : List Draft} {rails : List (List Node)} :
    AreRailsOf drafts rails → draftChars drafts = (railsText rails).toList
  | .last tree => tree.draftChars_eq
  | .further id tree rails => by
      rw [draftChars_append, draftChars_cons, tree.draftChars_eq, rails.draftChars_eq,
        railsText_cons _ rails.ne_nil]
      simp only [String.toList_append, List.append_assoc]
      rfl

end

/-- The text of a sequence is that of its tree. -/
theorem IsTreeOf.sequenceText_eq {elements : List Element} {nodes : List Node}
    (tree : IsTreeOf (drafts elements) nodes) : sequenceText elements = text nodes := by
  rw [RungText.sequenceText_eq, tree.draftChars_eq, String.ofList_toList, text]

/-! ### The instructions of a sequence -/

theorem isCanonical_instruction_iff {content : Instruction} :
    (Node.instruction content).IsCanonical ↔ content.IsCanonical := by
  constructor
  · rintro ⟨canonical⟩
    exact canonical
  · exact .instruction

theorem isCanonical_branch_iff {rails : List (List Node)} (nonempty : rails ≠ []) :
    (Node.branch rails).IsCanonical ↔ ∀ rail ∈ rails, AreCanonical rail := by
  constructor
  · intro canonical
    cases canonical with
    | branch _ railsCanonical => exact railsCanonical
  · exact .branch nonempty

theorem areCanonical_cons_iff {node : Node} {nodes : List Node} :
    AreCanonical (node :: nodes) ↔ node.IsCanonical ∧ AreCanonical nodes :=
  List.forall_mem_cons

/-- All instructions of a run of drafts are canonical. -/
def InstructionsAreCanonical (drafts : List Draft) : Prop :=
  ∀ content, .instruction content ∈ drafts → content.IsCanonical

mutual

/-- A tree is canonical when the instructions of its sequence are. -/
theorem IsTreeOf.areCanonical_iff {drafts : List Draft} {nodes : List Node} :
    IsTreeOf drafts nodes → (AreCanonical nodes ↔ InstructionsAreCanonical drafts)
  | .nil => by simp [AreCanonical, InstructionsAreCanonical]
  | .instruction content tree => by
      rw [areCanonical_cons_iff, isCanonical_instruction_iff, tree.areCanonical_iff]
      simp [InstructionsAreCanonical, or_imp, forall_and]
  | .branch id rails tree => by
      rw [areCanonical_cons_iff, isCanonical_branch_iff rails.ne_nil, rails.areCanonical_iff,
        tree.areCanonical_iff]
      simp [InstructionsAreCanonical, or_imp, forall_and]

theorem AreRailsOf.areCanonical_iff {drafts : List Draft} {rails : List (List Node)} :
    AreRailsOf drafts rails →
      ((∀ rail ∈ rails, AreCanonical rail) ↔ InstructionsAreCanonical drafts)
  | .last tree => by
      rw [List.forall_mem_singleton]
      exact tree.areCanonical_iff
  | .further id tree rails => by
      rw [List.forall_mem_cons, tree.areCanonical_iff, rails.areCanonical_iff]
      simp [InstructionsAreCanonical, or_imp, forall_and]

end

/-! ### Every sequence has a tree -/

/--
What is left of a sequence while some branches are open: for each of them, the rails that
are still to come and its end, and then the same for the branches around it.
-/
def Completes : List BranchId → List Draft → Prop
  | [], drafts => ∃ nodes, IsTreeOf drafts nodes
  | id :: outer, drafts => ∃ inner rails after,
      drafts = inner ++ .branchEnd id :: after ∧ AreRailsOf inner rails ∧ Completes outer after

/-- One more node in front of what is left of a sequence. -/
theorem Completes.prepend {first : List Draft} {node : Node}
    (isNode : ∀ drafts nodes, IsTreeOf drafts nodes → IsTreeOf (first ++ drafts) (node :: nodes))
    {opened : List BranchId} {drafts : List Draft} (completes : Completes opened drafts) :
    Completes opened (first ++ drafts) := by
  cases opened with
  | nil =>
      obtain ⟨nodes, tree⟩ := completes
      exact ⟨node :: nodes, isNode drafts nodes tree⟩
  | cons id outer =>
      obtain ⟨inner, rails, after, rfl, areRails, rest⟩ := completes
      cases areRails with
      | last tree =>
          exact ⟨first ++ inner, _, after, (List.append_assoc _ _ _).symm,
            .last (isNode _ _ tree), rest⟩
      | further other tree others =>
          have grown := AreRailsOf.further other (isNode _ _ tree) others
          rw [List.append_assoc] at grown
          exact ⟨_, _, after, (List.append_assoc _ _ _).symm, grown, rest⟩

theorem completes_of_branchesAfter? {opened : List BranchId} {drafts : List Draft}
    (closes : branchesAfter? opened drafts = some []) : Completes opened drafts := by
  induction drafts generalizing opened with
  | nil =>
      cases closes
      exact ⟨[], .nil⟩
  | cons draft rest ih =>
      cases draft with
      | instruction content =>
          have isNode : ∀ drafts nodes, IsTreeOf drafts nodes →
              IsTreeOf ([.instruction content] ++ drafts) (.instruction content :: nodes) :=
            fun drafts nodes tree => .instruction content tree
          exact (ih closes).prepend isNode
      | branchStart id =>
          obtain ⟨inner, rails, after, rfl, areRails, outer⟩ := ih closes
          have isNode : ∀ drafts nodes, IsTreeOf drafts nodes →
              IsTreeOf (.branchStart id :: (inner ++ [.branchEnd id]) ++ drafts)
                (.branch rails :: nodes) := by
            intro drafts nodes tree
            have branch := IsTreeOf.branch id areRails tree
            simpa using branch
          simpa using outer.prepend isNode
      | branchNext id =>
          cases opened with
          | nil =>
              rw [branchesAfter?_cons] at closes
              cases closes
          | cons innermost outer =>
              obtain ⟨inner, rails, after, rfl, areRails, rest⟩ := ih closes
              exact ⟨_, _, after, rfl, .further id .nil areRails, rest⟩
      | branchEnd id =>
          obtain ⟨outer, rfl, rest⟩ := exists_of_branchesAfter?_branchEnd closes
          exact ⟨[], [[]], _, rfl, .last .nil, ih rest⟩

/-- Every sequence whose markers pair up has a tree. -/
theorem exists_isTreeOf {drafts : List Draft} (nested : WellNested drafts) :
    ∃ nodes, IsTreeOf drafts nodes :=
  completes_of_branchesAfter? nested.closes

/-! ### The sequence of a tree -/

mutual

theorem isTreeOf_toDrafts (next : Nat) {drafts : List Draft} {nodes : List Node} :
    ∀ node : Node, node.IsCanonical → IsTreeOf drafts nodes →
      IsTreeOf ((node.toDrafts next).1 ++ drafts) (node :: nodes)
  | .instruction content, _, tree => .instruction content tree
  | .branch rails, canonical, tree => by
      cases canonical with
      | branch nonempty railsCanonical =>
          have inner := areRailsOf_firstRailDrafts (next + 1) rails nonempty railsCanonical
          have branch := IsTreeOf.branch (.ofNat next) inner tree
          simpa [Node.toDrafts] using branch

/-- The sequence that is made of a tree has that tree. -/
theorem isTreeOf_railDrafts (next : Nat) :
    ∀ nodes : List Node, AreCanonical nodes → IsTreeOf (railDrafts next nodes).1 nodes
  | [], _ => .nil
  | node :: others, canonical => by
      obtain ⟨nodeCanonical, othersCanonical⟩ := List.forall_mem_cons.mp canonical
      have rest := isTreeOf_railDrafts (node.toDrafts next).2 others othersCanonical
      exact isTreeOf_toDrafts next node nodeCanonical rest

theorem areRailsOf_firstRailDrafts (next : Nat) :
    ∀ rails : List (List Node), rails ≠ [] → (∀ rail ∈ rails, AreCanonical rail) →
      AreRailsOf (firstRailDrafts next rails).1 rails
  | [], nonempty, _ => absurd rfl nonempty
  | [last], _, canonical => by
      have tree := isTreeOf_railDrafts next last (canonical last List.mem_cons_self)
      simpa [firstRailDrafts, furtherRailDrafts] using AreRailsOf.last tree
  | first :: second :: others, _, canonical => by
      obtain ⟨firstCanonical, othersCanonical⟩ := List.forall_mem_cons.mp canonical
      have tree := isTreeOf_railDrafts next first firstCanonical
      have rest := areRailsOf_firstRailDrafts ((railDrafts next first).2 + 1) (second :: others)
        (List.cons_ne_nil second others) othersCanonical
      -- Behind its marker, a further rail is the first one of those that are left.
      exact .further (.ofNat (railDrafts next first).2) tree rest

end

end RungText
end LadderDiagram
