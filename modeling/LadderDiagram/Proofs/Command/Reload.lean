import LadderDiagram.Proofs.Command.RoundTrip
import LadderDiagram.Proofs.L5x.Document
import LadderDiagram.Proofs.Routine.Reload
import LadderDiagram.Proofs.RungText.LineEnds

/-!
# Documents that are loaded again

A routine that is exported as a document and loaded from it is the same routine, but for line
ends and for blanks around its name and its comments.  What stands in the way is the mark of
the end of a section within a text, which cuts the section in two, and more references in the
names than a document may hold.
-/

namespace LadderDiagram

open Text (lineFed)

/-! ### What is received -/

/-- A saved rung with line feeds, and with its comment trimmed. -/
def RungSnapshot.received (saved : RungSnapshot) : RungSnapshot :=
  ⟨saved.number, lineFed saved.text, saved.comment.map fun comment => Text.trim (lineFed comment)⟩

/-- A saved routine with line feeds, and with its name and its comments trimmed. -/
def RoutineSnapshot.received (saved : RoutineSnapshot) : RoutineSnapshot :=
  ⟨Text.trim (lineFed saved.name), saved.rungs.map RungSnapshot.received⟩

/-- No text and no comment of a routine holds the mark of the end of a section. -/
def Routine.IsWhole (routine : Routine) : Prop :=
  ∀ rung ∈ routine.rungs, L5x.IsWhole rung.text ∧ ∀ comment ∈ rung.comment, L5x.IsWhole comment

instance (routine : Routine) : Decidable routine.IsWhole :=
  inferInstanceAs (Decidable (∀ rung ∈ routine.rungs,
    L5x.IsWhole rung.text ∧ ∀ comment ∈ rung.comment, L5x.IsWhole comment))

namespace L5x

/-- A saved rung as it is written into a document. -/
def writtenRung (saved : RungSnapshot) : WrittenRung :=
  ⟨.ofNat saved.number, saved.text, saved.comment⟩

theorem referenceCount_number (number : Nat) :
    Xml.referenceCount (Address.ofNat number).text.toList = 0 := by
  have digits : ∀ char ∈ (Address.ofNat number).text.toList, char.isDigit := by
    intro char member
    have inDigits : char ∈ (toString number).toList := member
    rw [Nat.toString_eq_repr, Nat.toList_repr] at inDigits
    exact Nat.isDigit_of_mem_toDigits (by decide) (by decide) inDigits
  have none (sign : Char) (isSign : sign.isDigit = false) :
      (Address.ofNat number).text.toList.count sign = 0 := by
    apply List.count_eq_zero.mpr
    intro member
    rw [digits sign member] at isSign
    cases isSign
  simp [Xml.referenceCount, Xml.countedChars, none]

theorem receivedText_withLineFeeds (text : String) :
    receivedText Text.withLineFeeds text = lineFed text := rfl

/-- A comment that says something is received trimmed, and still says something. -/
theorem normalize_received {rung : WrittenRung}
    (commented : ∀ comment ∈ rung.comment, Text.isBlankText comment = false) :
    Comment.normalize (receivedRung Text.withLineFeeds rung).comment =
      rung.comment.map fun comment => Text.trim (lineFed comment) := by
  cases isComment : rung.comment with
  | none => simp [receivedRung, isComment, Comment.normalize]
  | some comment =>
      have solid : Text.isBlankText (Text.trim (lineFed comment)) = false := by
        rw [Text.isBlankText_trim, Text.isBlankText_lineFed]
        exact commented comment isComment
      have nonempty : (Text.trim (lineFed comment)).isEmpty = false := by
        rw [← Bool.not_eq_true, String.isEmpty_iff]
        intro empty
        rw [empty] at solid
        exact absurd solid (by decide)
      have received : (receivedRung Text.withLineFeeds rung).comment =
          some (Text.trim (lineFed comment)) := by
        have kept : (some (Text.trim (lineFed comment))).filter (!·.isEmpty) =
            some (Text.trim (lineFed comment)) := by
          rw [Option.filter_some, nonempty]
          exact if_pos Bool.not_false
        rw [receivedRung]
        dsimp only
        rw [isComment, Option.map_some, receivedText_withLineFeeds, kept]
      have kept : Comment.normalize (some (Text.trim (lineFed comment))) =
          some (Text.trim (lineFed comment)) := by
        rw [Comment.normalize, Option.filter_some, solid]
        exact if_pos Bool.not_false
      rw [received, kept, Option.map_some]

theorem writeRoutine_eq (saved : RoutineSnapshot) (program? : Option String) :
    writeRoutine saved program? = writeRungs saved.name program? (saved.rungs.map writtenRung) :=
  rfl

section Documents

variable (saved : RoutineSnapshot) {program? : Option String}
  (few : 2 * Xml.referenceCount saved.name.toList +
    Xml.referenceCount (program?.getD defaultProgram).toList ≤ Xml.mostReferences)

include few

/-- The first routine of a document that is written is the one that was written. -/
theorem readRoutine_writeRoutine (whole : ∀ rung ∈ saved.rungs, (writtenRung rung).IsWhole) :
    readRoutine (writeRoutine saved program?) none =
      .ok ⟨some (Text.trim (lineFed saved.name)),
        saved.rungs.map fun rung => receivedRung Text.withLineFeeds (writtenRung rung)⟩ := by
  have name : receivedText (Text.trimChars ∘ Text.withLineFeeds) saved.name =
      Text.trim (lineFed saved.name) := by
    rw [Text.trim, Text.toList_lineFed]
    rfl
  have found := entries_writeRungs (List.forall_mem_map.mpr whole)
    (List.forall_mem_map.mpr fun rung _ => referenceCount_number rung.number) few
  rw [name, List.map_map, ← writeRoutine_eq] at found
  unfold readRoutine
  exact (congrArg (· >>= _) found).trans rfl

theorem readRoutine_writeRoutine_of_not_isWhole
    (cut : ¬ ∀ rung ∈ saved.rungs, (writtenRung rung).IsWhole) :
    readRoutine (writeRoutine saved program?) none = .error .noRoutine := by
  have cutRung : ∃ rung ∈ saved.rungs.map writtenRung, ¬ rung.IsWhole := by
    push Not at cut
    obtain ⟨rung, member, cutRung⟩ := cut
    exact ⟨writtenRung rung, List.mem_map_of_mem member, cutRung⟩
  have found := entries_writeRungs_of_not_isWhole cutRung
    (List.forall_mem_map.mpr fun rung _ => referenceCount_number rung.number) few
  rw [← writeRoutine_eq] at found
  unfold readRoutine
  exact (congrArg (· >>= _) found).trans rfl

end Documents

end L5x

namespace Command

variable {α : Type} [Scalar α]

/-- What is read back from a document of a routine is a routine that is saved as it. -/
theorem exists_ofSource_received {routine : Routine}
    (carries : routine.Carries Instruction.IsReadable) :
    ∃ after : Routine, after.IsSound ∧
      Routine.ofSource ⟨some (Text.trim (lineFed routine.name)),
        routine.snapshot.rungs.map fun rung =>
          L5x.receivedRung Text.withLineFeeds (L5x.writtenRung rung)⟩ = .ok after ∧
      after.snapshot = routine.snapshot.received := by
  have texts (rung : Rung) (member : rung ∈ routine.rungs) :
      ∃ nodes, RungText.AreCanonical nodes ∧ lineFed rung.text = RungText.text nodes := by
    obtain ⟨nodes, _, canonical, isText⟩ :=
      (carries.sound.rungs rung member).exists_text_eq (carries.holds rung member)
    obtain ⟨fed, areFed, isFed⟩ := RungText.exists_lineFed_text canonical
    exact ⟨fed, areFed, by rw [isText, isFed]⟩
  have source (number : Nat) (rung : Rung) (member : rung ∈ routine.rungs) :
      (L5x.receivedRung Text.withLineFeeds
        (L5x.writtenRung ⟨number, rung.text, rung.comment⟩)).text = some (lineFed rung.text) := by
    obtain ⟨nodes, canonical, isText⟩ := texts rung member
    rw [L5x.receivedRung, L5x.receivedText_withLineFeeds, L5x.writtenRung]
    dsimp only
    rw [isText, RungText.trim_text canonical]
  obtain ⟨after, sound, reads, name, isRead⟩ :=
    Routine.exists_ofSource (Text.trim (lineFed routine.name))
      (routine.snapshot.rungs.map fun rung =>
        L5x.receivedRung Text.withLineFeeds (L5x.writtenRung rung)) (by
      intro own member
      obtain ⟨saved, isSaved, rfl⟩ := List.mem_map.mp member
      obtain ⟨number, bounded, rfl⟩ := List.mem_mapIdx.mp isSaved
      obtain ⟨nodes, canonical, isText⟩ := texts _ (List.getElem_mem bounded)
      exact ⟨nodes, canonical, (source number _ (List.getElem_mem bounded)).trans
        (congrArg some isText)⟩)
  refine ⟨after, sound, reads, ?_⟩
  have rungs : after.snapshot.rungs = routine.snapshot.rungs.map RungSnapshot.received := by
    apply List.ext_getElem?
    intro index
    have own := congrArg (·[index]?) isRead
    simp only [List.getElem?_map, Routine.snapshot, List.getElem?_mapIdx, Option.map_map] at own ⊢
    cases stands : routine.rungs[index]? with
    | none =>
        rw [stands, Option.map_none] at own
        rw [Option.map_eq_none_iff.mp own]
        rfl
    | some rung =>
        have member := List.mem_of_getElem? stands
        rw [stands, Option.map_some] at own
        obtain ⟨fresh, isFresh, same⟩ := Option.map_eq_some_iff.mp own
        obtain ⟨sameText, sameComment⟩ := Prod.mk.inj same
        have isText : fresh.text = lineFed rung.text :=
          Option.some.inj (sameText.trans (source index rung member))
        have isComment : fresh.comment =
            rung.comment.map fun comment => Text.trim (lineFed comment) :=
          sameComment.trans (L5x.normalize_received (carries.commented rung member))
        rw [isFresh, Option.map_some, Option.map_some, isText, isComment]
        rfl
  have isName : after.snapshot.name = Text.trim (lineFed routine.snapshot.name) := name
  exact (congrArg₂ RoutineSnapshot.mk isName rungs :)

/-- A sound routine that a source is read as is loaded in place of any drawing. -/
theorem exists_executeLoad {source : RoutineSource} {routine : Routine}
    (reads : Routine.ofSource source = .ok routine) (sound : routine.IsSound)
    (other : Drawing α) :
    ∃ after events, executeLoad other source = ⟨.ok (.loaded routine.snapshot), after, events⟩ ∧
      after.routine = routine := by
  obtain ⟨after, makes, same⟩ := Drawing.exists_ofRoutine_of_isSound other.config sound
  exact ⟨after, _, executeLoad_eq reads makes, same⟩

omit [Scalar α] in
theorem isWhole_snapshot {routine : Routine} :
    (∀ saved ∈ routine.snapshot.rungs, (L5x.writtenRung saved).IsWhole) ↔ routine.IsWhole := by
  constructor
  · intro whole rung member
    obtain ⟨number, bounded, rfl⟩ := List.mem_iff_getElem.mp member
    have saved := whole _ (List.mem_mapIdx.mpr ⟨number, bounded, rfl⟩)
    exact ⟨saved.text, saved.comment⟩
  · intro whole saved member
    obtain ⟨number, bounded, rfl⟩ := List.mem_mapIdx.mp member
    obtain ⟨text, comment⟩ := whole _ (List.getElem_mem bounded)
    exact ⟨text, comment⟩

section Reloading

variable {drawing : Drawing α} {program? : Option String}
  (few : 2 * Xml.referenceCount drawing.routine.name.toList +
    Xml.referenceCount (program?.getD L5x.defaultProgram).toList ≤ Xml.mostReferences)
  (other : Drawing α)

include few

theorem exists_loadDocument {config : LayoutConfig α} (reachable : Reachable config drawing)
    (whole : drawing.routine.IsWhole) :
    ∃ after events,
      execute other (.loadDocument (L5x.writeRoutine drawing.routine.snapshot program?) none) =
        ⟨.ok (.loaded drawing.routine.snapshot.received), after, events⟩ ∧
      after.routine.snapshot = drawing.routine.snapshot.received := by
  obtain ⟨routine, sound, reads, same⟩ := exists_ofSource_received reachable.carries
  obtain ⟨after, events, loads, isRoutine⟩ := exists_executeLoad reads sound other
  refine ⟨after, events, ?_, by rw [isRoutine, same]⟩
  have isRead := L5x.readRoutine_writeRoutine drawing.routine.snapshot few
    (isWhole_snapshot.mpr whole)
  rw [execute, isRead]
  dsimp only
  rw [← same]
  exact loads

theorem execute_loadDocument_of_not_isWhole (cut : ¬ drawing.routine.IsWhole) :
    execute other (.loadDocument (L5x.writeRoutine drawing.routine.snapshot program?) none) =
      ⟨.error (.document .noRoutine), other, []⟩ := by
  have isRead := L5x.readRoutine_writeRoutine_of_not_isWhole drawing.routine.snapshot few
    fun whole => cut (isWhole_snapshot.mp whole)
  rw [execute, isRead]

end Reloading

/--
The document that a routine is exported as gives the routine back when it is loaded in place of
any drawing: as many rungs in their order, with their texts and comments, and the name, all with
line feeds for line ends, and with name and comments trimmed.  This needs that no text and no
comment holds the mark of the end of a section; if one does, no routine is found in the document.
The names must not need more references than a document may hold; that of the routine is written
twice.
-/
theorem exists_reload {config : LayoutConfig α} {drawing : Drawing α}
    (reachable : Reachable config drawing) (program? : Option String)
    (few : 2 * Xml.referenceCount drawing.routine.name.toList +
      Xml.referenceCount (program?.getD L5x.defaultProgram).toList ≤ Xml.mostReferences)
    (other : Drawing α) :
    ∃ document,
      execute drawing (.exportDocument program?) = ⟨.ok (.document document), drawing, []⟩ ∧
      (drawing.routine.IsWhole → ∃ after events,
        execute other (.loadDocument document none) =
          ⟨.ok (.loaded drawing.routine.snapshot.received), after, events⟩ ∧
        after.routine.snapshot = drawing.routine.snapshot.received) ∧
      (¬ drawing.routine.IsWhole →
        execute other (.loadDocument document none) =
          ⟨.error (.document .noRoutine), other, []⟩) :=
  ⟨L5x.writeRoutine drawing.routine.snapshot program?, rfl,
    exists_loadDocument few other reachable, execute_loadDocument_of_not_isWhole few other⟩

/-- A drawing whose routine has references in its name, and blanks and line ends to lose. -/
def quotedDrawing : Drawing Rat :=
  (execute (.blank .standard .empty) (.load ⟨some " Line \"A\" & B ",
    [⟨some "CMP(f(a\r\n), x<y);", some " first\r\nsecond "⟩, ⟨none, none⟩]⟩)).drawing

theorem exists_reload_of_quoted :
    ∃ document after events,
      execute quotedDrawing (.exportDocument (some "<Main>")) =
        ⟨.ok (.document document), quotedDrawing, []⟩ ∧
      execute (.blank .standard .empty : Drawing Rat) (.loadDocument document none) =
        ⟨.ok (.loaded ⟨"Line \"A\" & B", [⟨0, "CMP(f(a\n),x<y);", some "first\nsecond"⟩,
          ⟨1, ";", none⟩]⟩), after, events⟩ := by
  obtain ⟨document, exports, reloads, _⟩ :=
    @exists_reload _ _ .standard quotedDrawing (.executed _ .new) (some "<Main>")
      (by decide +kernel) (.blank .standard .empty)
  obtain ⟨after, events, loads, _⟩ :=
    reloads (show quotedDrawing.routine.IsWhole by decide +kernel)
  have received : quotedDrawing.routine.snapshot.received =
      ⟨"Line \"A\" & B", [⟨0, "CMP(f(a\n),x<y);", some "first\nsecond"⟩, ⟨1, ";", none⟩]⟩ := by
    decide +kernel
  exact ⟨document, after, events, exports, received ▸ loads⟩

/-- A drawing with the mark of the end of a section in a comment. -/
def markedDrawing : Drawing Rat :=
  (execute (.blank .standard .empty) (.load ⟨none, [⟨some "OTE(B);", some "a]]>b"⟩]⟩)).drawing

/-- The routine is kept and exported as any other, and it is not found in its own document. -/
theorem not_loaded_of_marked :
    markedDrawing.routine.snapshot = ⟨"MainRoutine", [⟨0, "OTE(B);", some "a]]>b"⟩]⟩ ∧
    ∃ document,
      execute markedDrawing (.exportDocument none) =
        ⟨.ok (.document document), markedDrawing, []⟩ ∧
      execute (.blank .standard .empty : Drawing Rat) (.loadDocument document none) =
        ⟨.error (.document .noRoutine), .blank .standard .empty, []⟩ := by
  refine ⟨by decide +kernel, L5x.writeRoutine markedDrawing.routine.snapshot none, rfl, ?_⟩
  exact execute_loadDocument_of_not_isWhole (by decide +kernel) _ (by decide +kernel)

end Command
end LadderDiagram
