import LadderDiagram.Proofs.L5x.Value
import LadderDiagram.Proofs.Xml.Check

/-!
# Documents of routines

The document that is written for a routine is plain and well formed.  Reading finds one routine
in it, with the rungs that were written, in their order, or no routine where a text is cut.
-/

namespace LadderDiagram
namespace L5x

open Xml

variable {name program : String} {rungs : List WrittenRung}

theorem isPlain_sectionElement {elementName : String} (isWord : isWord elementName.toList)
    (text : String) : (sectionElement elementName text).IsPlain 1 :=
  .element isWord (.of_names [] rfl nofun List.nodup_nil) (.cons .characters .nil)

theorem isPlain_rung (rung : WrittenRung) : rung.node.IsPlain 2 := by
  have text (own : String) : (sectionElement "Text" own).IsPlain 1 :=
    isPlain_sectionElement (by decide) own
  have comment (own : String) : (sectionElement "Comment" own).IsPlain 1 :=
    isPlain_sectionElement (by decide) own
  have written : AreWritten [("Number", rung.number.text), ("Type", "N")] :=
    .of_names ["Number", "Type"] rfl (by decide) (by decide)
  rw [WrittenRung.node]
  cases rung.comment with
  | none => exact .element (by decide) written (.cons (text rung.text) .nil)
  | some own =>
      exact .element (by decide) written (.cons (comment own) (.cons (text rung.text) .nil))

theorem arePlain_rungs (rungs : List WrittenRung) : ArePlain 2 (rungs.map WrittenRung.node) := by
  induction rungs with
  | nil => exact .nil
  | cons rung rest ih => exact .cons (isPlain_rung rung) ih

theorem isPlain_routineDocument (name program : String) (rungs : List WrittenRung) :
    (routineDocument name program rungs).IsPlain 9 := by
  have content : (Node.element "RLLContent" [] (rungs.map WrittenRung.node)).IsPlain 3 := by
    have inner := arePlain_rungs rungs
    cases rungs with
    | nil => exact .empty (by decide) (.of_names [] rfl nofun List.nodup_nil)
    | cons rung rest => exact .element (by decide) (.of_names [] rfl nofun List.nodup_nil) inner
  have routine : AreWritten [("Use", "Target"), ("Name", name), ("Type", "RLL")] :=
    .of_names ["Use", "Name", "Type"] rfl (by decide) (by decide)
  have context : AreWritten [("Use", "Context")] := .of_names ["Use"] rfl (by decide) (by decide)
  have ofProgram : AreWritten [("Use", "Context"), ("Name", program)] :=
    .of_names ["Use", "Name"] rfl (by decide) (by decide)
  have root : AreWritten [("SchemaRevision", "1.0"), ("TargetType", "Routine"),
      ("TargetName", name), ("ContainsContext", "true")] :=
    .of_names ["SchemaRevision", "TargetType", "TargetName", "ContainsContext"] rfl
      (by decide) (by decide)
  have around {elementName : String} (isWord : isWord elementName.toList)
      {attributes : List (String × String)} (written : AreWritten attributes) {levels : Nat}
      {child : Node} (isPlain : child.IsPlain levels) :
      (Node.element elementName attributes [child]).IsPlain (levels + 1) :=
    .element isWord written (.cons isPlain .nil)
  exact around (by decide) root (around (by decide) context (around (by decide) context
    (around (by decide) ofProgram (around (by decide) context
      (around (by decide) routine content)))))

theorem references_rungs (numbers : ∀ rung ∈ rungs, referenceCount rung.number.text.toList = 0) :
    referencesOfNodes (rungs.map WrittenRung.node) = 0 := by
  induction rungs with
  | nil => rfl
  | cons rung rest ih =>
      obtain ⟨first, others⟩ := List.forall_mem_cons.mp numbers
      have own : rung.node.references = 0 := by
        have letter : referenceCount "N".toList = 0 := by decide
        rw [WrittenRung.node, Node.references, referencesOfValues, List.map_cons, List.map_singleton]
        dsimp only
        rw [first, letter]
        cases rung.comment <;> rfl
      rw [List.map_cons, referencesOfNodes, own, ih others]

/-- The name is written twice, and the program's name once. -/
theorem references_routineDocument
    (numbers : ∀ rung ∈ rungs, referenceCount rung.number.text.toList = 0) :
    (routineDocument name program rungs).references =
      2 * referenceCount name.toList + referenceCount program.toList := by
  have inner := references_rungs numbers
  have constants : ∀ text ∈ ["1.0", "Routine", "true", "Context", "Target", "RLL"],
      referenceCount text.toList = 0 := by
    decide
  simp only [List.forall_mem_cons] at constants
  obtain ⟨isVersion, isRoutine, isTrue, isContext, isTarget, isKind, _⟩ := constants
  simp only [routineDocument, contextElement, Node.references, referencesOfNodes,
    referencesOfValues, List.map_cons, List.map_nil, List.sum_cons, List.sum_nil, inner,
    isVersion, isRoutine, isTrue, isContext, isTarget, isKind]
  omega

/-- A text is received whole or cut as it was written. -/
theorem isWhole_receivedText (text : String) :
    IsWhole (receivedText Text.withLineFeeds text) ↔ IsWhole text := by
  rw [IsWhole, IsWhole, receivedText, String.toList_ofList, infix_withLineFeeds_iff]

theorem entries_writeRungs_eq {program? : Option String}
    (numbers : ∀ rung ∈ rungs, referenceCount rung.number.text.toList = 0)
    (few : 2 * referenceCount name.toList +
      referenceCount (program?.getD defaultProgram).toList ≤ mostReferences) :
    entries (writeRungs name program? rungs) =
      .ok ((((rungs.map (rungValue (Text.trimChars ∘ Text.withLineFeeds)
          Text.withLineFeeds)).mapM rung?).map fun sources =>
        ⟨some (receivedText (Text.trimChars ∘ Text.withLineFeeds) name), sources⟩).toList) := by
  have isPlain := isPlain_routineDocument name (program?.getD defaultProgram) rungs
  have isRead := readTree_renderDocument isPlain (by decide)
    ((references_routineDocument numbers).trans_le few)
  have noFault : check? (writeRungs name program? rungs).toList = none :=
    check?_renderDocument isPlain
  rw [entries, noFault]
  dsimp only
  rw [writeRungs, routineDocument, isRead]
  dsimp only
  have found := routineValues_routineDocument (Text.trimChars ∘ Text.withLineFeeds)
    Text.withLineFeeds name (program?.getD defaultProgram) rungs
  rw [routineDocument, readNodes] at found
  rw [found, List.filterMap_cons, entry?_routineValue _ _ _ _ (by decide), rungs?_routineValue]
  cases (rungs.map (rungValue (Text.trimChars ∘ Text.withLineFeeds) Text.withLineFeeds)).mapM
    rung? <;> rfl

/-- Reading what is written finds the routine with its name, and with its rungs in their order. -/
theorem entries_writeRungs {program? : Option String} (whole : ∀ rung ∈ rungs, rung.IsWhole)
    (numbers : ∀ rung ∈ rungs, referenceCount rung.number.text.toList = 0)
    (few : 2 * referenceCount name.toList +
      referenceCount (program?.getD defaultProgram).toList ≤ mostReferences) :
    entries (writeRungs name program? rungs) =
      .ok [⟨some (receivedText (Text.trimChars ∘ Text.withLineFeeds) name),
        rungs.map (receivedRung Text.withLineFeeds)⟩] := by
  rw [entries_writeRungs_eq numbers few, mapM_rung? _ _ isWhole_receivedText whole]
  rfl

/-- Where a text holds the mark of the end of a section, no routine is found. -/
theorem entries_writeRungs_of_not_isWhole {program? : Option String}
    (cut : ∃ rung ∈ rungs, ¬ rung.IsWhole)
    (numbers : ∀ rung ∈ rungs, referenceCount rung.number.text.toList = 0)
    (few : 2 * referenceCount name.toList +
      referenceCount (program?.getD defaultProgram).toList ≤ mostReferences) :
    entries (writeRungs name program? rungs) = .ok [] := by
  rw [entries_writeRungs_eq numbers few,
    mapM_rung?_of_not_isWhole _ _ isWhole_receivedText cut]
  rfl

end L5x
end LadderDiagram
