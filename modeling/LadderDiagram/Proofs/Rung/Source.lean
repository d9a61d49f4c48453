import LadderDiagram.Proofs.Rung.Edit
import LadderDiagram.Proofs.RungText.Sequence

/-!
# Rungs that are read

Reading a rung takes handles only once its text has been read, and the sequence of
a text that has been read cannot fail to pair up.  So a source either fails and
takes nothing, or gives a sound rung with the handles from the next free one on.

The text of a sequence is read as the tree of that sequence if each of its instructions is
one that can be read.  The instructions of any text that is read are, so what is written
for them is stable from then on.
-/

namespace LadderDiagram

/-- An instruction that stands in some rung text. -/
def Instruction.IsRead (content : Instruction) : Prop :=
  ∃ text nodes next, RungText.parse text = .ok nodes ∧
    .instruction content ∈ (RungText.railDrafts next nodes).1

namespace Rung

/-- A rung that is read: sound, with handles of its own and instructions of a text. -/
structure Arises (first last : Nat) (rung : Rung) : Prop where
  sound : rung.IsSound
  next_le : first ≤ last
  fresh : ∀ id ∈ openedIds (drafts rung.elements), id.LiesIn first last
  read : ∀ content, .instruction content ∈ drafts rung.elements → content.IsRead
  commented : rung.IsCommented

theorem readNodes_cases (text : String) :
    (∃ error, error.IsOrdinary ∧ readNodes text = .error error) ∨
      ∃ nodes, RungText.parse text = .ok nodes ∧ readNodes text = .ok nodes := by
  unfold readNodes
  cases parsed : RungText.parse text with
  | ok nodes => exact Or.inr ⟨nodes, rfl, rfl⟩
  | error faults => exact Or.inl ⟨.unreadableText text faults, nofun, rfl⟩

/-- The drafts of a text: those of its tree, or none if there is no text. -/
theorem readDrafts_cases (text : Option String) (next : Nat) :
    (∃ error, error.IsOrdinary ∧ (readDrafts text).on next = (.error error, next)) ∨
      (readDrafts text).on next = (.ok [], next) ∨
      ∃ source nodes, RungText.parse source = .ok nodes ∧
        (readDrafts text).on next =
          (.ok (RungText.railDrafts next nodes).1, (RungText.railDrafts next nodes).2) := by
  cases text with
  | none => exact Or.inr (Or.inl rfl)
  | some text =>
      unfold readDrafts
      by_cases blank : text.isEmpty
      · exact Or.inr (Or.inl (by simp [blank]))
      rcases readNodes_cases text with ⟨error, ordinary, fails⟩ | ⟨nodes, parsed, reads⟩
      · refine Or.inl ⟨error, ordinary, ?_⟩
        simp [blank, Action.on_bind, fails]
      · refine Or.inr (Or.inr ⟨text, nodes, parsed, ?_⟩)
        simp only [blank, Bool.false_eq_true, if_false, Action.on_bind, Action.on_settled, reads]
        rfl

/-- A source that fails takes no handle; one that is read gives a sound rung. -/
theorem ofSource_cases (source : RungSource) (next : Nat) :
    (∃ error, error.IsOrdinary ∧ (ofSource source).on next = (.error error, next)) ∨
      ∃ rung after, Arises next after rung ∧ (ofSource source).on next = (.ok rung, after) := by
  unfold ofSource
  rcases readDrafts_cases source.text next with
    ⟨error, ordinary, fails⟩ | none | ⟨text, nodes, parsed, reads⟩
  · exact Or.inl ⟨error, ordinary, Action.on_bind_of_error fails _⟩
  · have annotates : annotate [] = .ok [] := rfl
    refine Or.inr ⟨ofElements [] (Comment.normalize source.comment), next,
      ⟨.ofElements annotates _, Nat.le_refl next, ?_, ?_, ?_⟩, ?_⟩
    · exact fun id member => absurd member List.not_mem_nil
    · exact fun content member => absurd member List.not_mem_nil
    · exact fun comment kept => Comment.isBlankText_of_normalize kept
    · rw [Action.on_bind_of_ok none]
      rfl
  · obtain ⟨elements, annotates⟩ :=
      exists_annotate_iff.mpr (RungText.wellNested_railDrafts next nodes)
    have own : drafts (ofElements elements (Comment.normalize source.comment)).elements =
        (RungText.railDrafts next nodes).1 := drafts_of_annotate annotates
    refine Or.inr ⟨ofElements elements (Comment.normalize source.comment),
      (RungText.railDrafts next nodes).2, ⟨.ofElements annotates _, ?_, ?_, ?_, ?_⟩, ?_⟩
    · exact (RungText.counts_rail [] next nodes).next_le
    · rw [own]
      exact fun id opened => RungText.mem_openedIds_railDrafts.mp opened
    · rw [own]
      exact fun content member => ⟨text, nodes, next, parsed, member⟩
    · exact fun comment kept => Comment.isBlankText_of_normalize kept
    · rw [Action.on_bind_of_ok reads, Action.on_bind, Action.on_settled, annotates]
      rfl

end Rung

/-! ### The round trip of the text -/

/-- An instruction that some text writes by itself. -/
def Instruction.IsReadable (content : Instruction) : Prop :=
  ∃ text, readInstruction text = .ok content

theorem Instruction.IsRead.isCanonical {content : Instruction} (isRead : content.IsRead) :
    content.IsCanonical := by
  obtain ⟨text, nodes, next, parses, member⟩ := isRead
  have canonical := RungText.areCanonical_of_parse parses
  have tree := RungText.isTreeOf_railDrafts next nodes canonical
  exact tree.areCanonical_iff.mp canonical content member

theorem isCanonical_of_readInstruction {text : String} {content : Instruction}
    (reads : readInstruction text = .ok content) : content.IsCanonical := by
  unfold readInstruction at reads
  rcases Rung.readNodes_cases text with ⟨error, _, fails⟩ | ⟨nodes, parses, readsNodes⟩
  · rw [fails] at reads
    cases reads
  have canonical := RungText.areCanonical_of_parse parses
  rw [readsNodes] at reads
  split at reads
  next failed => cases failed
  next own isNodes =>
    cases reads
    cases isNodes
    exact RungText.isCanonical_instruction_iff.mp (canonical _ List.mem_cons_self)
  next => cases reads

/-- The instructions that some text writes are the canonical ones. -/
theorem Instruction.isReadable_iff {content : Instruction} :
    content.IsReadable ↔ content.IsCanonical := by
  constructor
  · rintro ⟨text, reads⟩
    exact isCanonical_of_readInstruction reads
  · intro canonical
    have parses : RungText.parse (RungText.text [.instruction content]) =
        .ok [.instruction content] := by
      apply RungText.parse_text
      exact List.forall_mem_singleton.mpr (.instruction canonical)
    refine ⟨RungText.text [.instruction content], ?_⟩
    unfold readInstruction readNodes
    rw [parses]

namespace RungText

/-- The text of a sequence is read as the tree of the sequence, which has no other tree. -/
theorem exists_parse_sequenceText {source : List Draft} {elements : List Element}
    (annotates : annotate source = .ok elements)
    (readable : ∀ content, .instruction content ∈ source → content.IsReadable) :
    ∃ nodes, IsTreeOf source nodes ∧ (∀ other, IsTreeOf source other → other = nodes) ∧
      parse (sequenceText elements) = .ok nodes := by
  have canonical : InstructionsAreCanonical source :=
    fun content member => Instruction.isReadable_iff.mp (readable content member)
  have reads (nodes : List Node) (tree : IsTreeOf source nodes) :
      parse (sequenceText elements) = .ok nodes := by
    have writes := drafts_of_annotate annotates ▸ tree
    rw [writes.sequenceText_eq]
    exact parse_text (tree.areCanonical_iff.mpr canonical)
  obtain ⟨nodes, tree⟩ := exists_isTreeOf (wellNested_of_annotate annotates)
  refine ⟨nodes, tree, fun other otherTree => ?_, reads nodes tree⟩
  exact Except.ok.inj ((reads other otherTree).symm.trans (reads nodes tree))

/-- The sequence of a tree that has been read is written as the text of that tree. -/
theorem exists_sequenceText_eq {source : String} {nodes : List Node}
    (parses : parse source = .ok nodes) (next : Nat) :
    ∃ elements, annotate (railDrafts next nodes).1 = .ok elements ∧
      sequenceText elements = text nodes := by
  obtain ⟨elements, annotates⟩ := exists_annotate_iff.mpr (wellNested_railDrafts next nodes)
  have tree := isTreeOf_railDrafts next nodes (areCanonical_of_parse parses)
  have writes := (drafts_of_annotate annotates).symm ▸ tree
  exact ⟨elements, annotates, writes.sequenceText_eq⟩

end RungText
end LadderDiagram
