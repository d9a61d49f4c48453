import LadderDiagram.Proofs.Routine.Run
import LadderDiagram.Proofs.Rung.Source

/-!
# Routines that are read from written texts

A source whose texts are those of canonical trees is read without an error, into rungs with
these texts and with the comments of the source that say something.
-/

namespace LadderDiagram

namespace Rung

/-- The text of a rung with readable instructions is that of its tree, which is canonical. -/
theorem IsSound.exists_text_eq {rung : Rung} (sound : rung.IsSound)
    (readable : ∀ content, .instruction content ∈ drafts rung.elements → content.IsReadable) :
    ∃ nodes, RungText.IsTreeOf (drafts rung.elements) nodes ∧ RungText.AreCanonical nodes ∧
      rung.text = RungText.text nodes := by
  obtain ⟨nodes, tree⟩ := RungText.exists_isTreeOf sound.wellNested
  refine ⟨nodes, tree, tree.areCanonical_iff.mpr ?_, tree.sequenceText_eq⟩
  exact fun content member => Instruction.isReadable_iff.mp (readable content member)

/-- The text of a canonical tree is read as the sequence that is made of this tree. -/
theorem on_readDrafts_text {nodes : List RungText.Node} (canonical : RungText.AreCanonical nodes)
    (next : Nat) :
    (readDrafts (some (RungText.text nodes))).on next =
      (.ok (RungText.railDrafts next nodes).1, (RungText.railDrafts next nodes).2) := by
  have nonempty : (RungText.text nodes).isEmpty = false := by
    simp [RungText.text]
  have isTree : readNodes (RungText.text nodes) = .ok nodes := by
    rw [readNodes, RungText.parse_text canonical]
  simp only [readDrafts, nonempty, Bool.false_eq_true, if_false, Action.on_bind,
    Action.on_settled, isTree]
  rfl

/-- The text of a canonical tree is read into a rung with that text. -/
theorem exists_ofSource_text {nodes : List RungText.Node} (canonical : RungText.AreCanonical nodes)
    (comment : Option String) (next : Nat) :
    ∃ rung after, Arises next after rung ∧
      (ofSource ⟨some (RungText.text nodes), comment⟩).on next = (.ok rung, after) ∧
      rung.text = RungText.text nodes ∧ rung.comment = Comment.normalize comment := by
  have parses := RungText.parse_text canonical
  obtain ⟨elements, annotates, writes⟩ := RungText.exists_sequenceText_eq parses next
  have isRead : (ofSource ⟨some (RungText.text nodes), comment⟩).on next =
      (.ok (ofElements elements (Comment.normalize comment)),
        (RungText.railDrafts next nodes).2) := by
    unfold ofSource
    rw [Action.on_bind_of_ok (on_readDrafts_text canonical next), Action.on_bind,
      Action.on_settled, annotates]
    rfl
  rcases ofSource_cases ⟨some (RungText.text nodes), comment⟩ next with
    ⟨error, _, fails⟩ | ⟨rung, after, arises, succeeds⟩
  · rw [isRead] at fails
    cases fails
  · rw [isRead] at succeeds
    cases succeeds
    exact ⟨_, _, arises, isRead, writes, rfl⟩

end Rung

namespace Routine

variable {routine : Routine}

/-- A rung that is read may be put behind all others. -/
theorem on_insertRung_size {source : RungSource} {rung : Rung} {nextId : Nat}
    (reads : (Rung.ofSource source).on routine.nextId = (.ok rung, nextId)) :
    (insertRung source (.ofNat routine.size)).on routine =
      (.ok routine.size, { routine with rungs := routine.rungs ++ [rung], nextId := nextId }) := by
  have gap : routine.gapAt (.ofNat routine.size) = .ok routine.size :=
    gapAt_eq_ok_iff.mpr ⟨rfl, Nat.le_refl _⟩
  have behind : routine.rungs.insertIdx routine.size rung = routine.rungs ++ [rung] :=
    List.insertIdx_length_self
  unfold insertRung makeRung
  rw [Action.on_bind_ask, gap]
  dsimp only
  rw [Action.on_bind, Action.on_within, reads, ← behind]
  rfl

/-- Sources with the texts of canonical trees are read behind the rungs of a routine. -/
theorem exists_appendRungs (sources : List RungSource) (sound : routine.IsSound)
    (canonical : ∀ source ∈ sources, ∃ nodes, RungText.AreCanonical nodes ∧
      source.text = some (RungText.text nodes)) :
    ∃ after, after.IsSound ∧ (appendRungs sources).on routine = (.ok (), after) ∧
      after.name = routine.name ∧
      after.rungs.map (fun rung => (some rung.text, rung.comment)) =
        routine.rungs.map (fun rung => (some rung.text, rung.comment)) ++
          sources.map fun source => (source.text, Comment.normalize source.comment) := by
  induction sources generalizing routine with
  | nil => exact ⟨routine, sound, rfl, rfl, (List.append_nil _).symm⟩
  | cons source rest ih =>
      obtain ⟨⟨nodes, areCanonical, isText⟩, others⟩ := List.forall_mem_cons.mp canonical
      obtain ⟨rung, nextId, arises, reads, isWritten, isCommented⟩ :=
        Rung.exists_ofSource_text areCanonical source.comment routine.nextId
      rw [← isText] at reads
      have grown := sound.insertIdx arises (Nat.le_refl routine.size)
      have behind : routine.rungs.insertIdx routine.size rung = routine.rungs ++ [rung] :=
        List.insertIdx_length_self
      rw [behind] at grown
      obtain ⟨after, afterSound, appends, sameName, isRead⟩ := ih grown others
      refine ⟨after, afterSound, ?_, sameName, ?_⟩
      · unfold appendRungs
        rw [Action.on_bind, Action.on_get]
        dsimp only
        rw [Action.on_bind_of_ok (on_insertRung_size reads), appends]
      · rw [isRead, List.map_append, List.map_singleton, isWritten, isCommented, ← isText,
          List.append_assoc, List.singleton_append, List.map_cons]

/-- A named source with the texts of canonical trees is read as a routine with these texts. -/
theorem exists_ofSource (name : String) (sources : List RungSource)
    (canonical : ∀ source ∈ sources, ∃ nodes, RungText.AreCanonical nodes ∧
      source.text = some (RungText.text nodes)) :
    ∃ routine : Routine, routine.IsSound ∧ ofSource ⟨some name, sources⟩ = .ok routine ∧
      routine.name = name ∧
      routine.rungs.map (fun rung => (some rung.text, rung.comment)) =
        sources.map fun source => (source.text, Comment.normalize source.comment) := by
  obtain ⟨after, sound, appends, sameName, isRead⟩ :=
    exists_appendRungs sources (isSound_named name) canonical
  refine ⟨after, sound, ?_, sameName, isRead⟩
  unfold ofSource
  dsimp only [Option.getD_some]
  rw [appends]

end Routine

end LadderDiagram
