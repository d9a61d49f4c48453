import LadderDiagram.Proofs.Rung.Source
import LadderDiagram.Proofs.Text.Line

/-!
# Line ends in rung text

Only the operands of a rung text can hold line ends.  Where these are made line feeds the
operands stay what they are, so the text becomes that of a canonical tree with the same
instructions but for their operands.
-/

namespace LadderDiagram

open Text (withLineFeeds lineFed BecomesFed becomesFed_of_not_mem becomesFed_concat)

namespace RungText

/-! ### Operands -/

/-- A line end counts no parenthesis. -/
theorem depthAfter?_withLineFeeds (depth : Nat) (chars : List Char) :
    depthAfter? depth (withLineFeeds chars) = depthAfter? depth chars := by
  have space (char : Char) (isEnd : char = '\n' ∨ char = '\r') (depth : Nat) :
      depthAfterChar? depth char = some depth := by
    apply depthAfterChar?_of_isOperandText
    rcases isEnd with rfl | rfl <;> decide
  fun_induction withLineFeeds chars generalizing depth with
  | case1 => rfl
  | case2 more ih =>
      simp only [depthAfter?_cons, space _ (.inl rfl), space _ (.inr rfl), Option.bind_some, ih]
  | case3 more _ ih =>
      simp only [depthAfter?_cons, space _ (.inl rfl), space _ (.inr rfl), Option.bind_some, ih]
  | case4 char more _ _ ih =>
      rw [depthAfter?_cons, depthAfter?_cons]
      congr 1
      funext after
      exact ih after

theorem IsOperand.lineFed {operand : String} (isOperand : IsOperand operand) :
    IsOperand (lineFed operand) where
  trimmed := by
    have trimmed : Text.trimChars operand.toList = operand.toList := by
      have same := congrArg String.toList isOperand.trimmed
      rwa [Text.trim, String.toList_ofList] at same
    rw [Text.trim, Text.toList_lineFed, Text.trimChars_withLineFeeds trimmed, Text.lineFed]
  closes := by
    rw [Text.toList_lineFed, depthAfter?_withLineFeeds]
    exact isOperand.closes

theorem becomesFed_operands (operands : List String) :
    BecomesFed ((",".intercalate operands).toList ++ [')'])
      ((",".intercalate (operands.map lineFed)).toList ++ [')']) := by
  have closes (chars : List Char) : BecomesFed (chars ++ [')']) (withLineFeeds chars ++ [')']) :=
    becomesFed_concat chars _ (by decide) (by decide)
  cases operands with
  | nil =>
      rw [List.map_nil, String.intercalate_nil]
      exact closes []
  | cons first others =>
      induction others generalizing first with
      | nil =>
          rw [List.map_singleton, String.intercalate_singleton, String.intercalate_singleton,
            Text.toList_lineFed]
          exact closes first.toList
      | cons second others ih =>
          have separated := (becomesFed_concat first.toList ',' (by decide) (by decide)).append
            (ih second)
          rw [List.map_cons, List.map_cons, String.intercalate_cons_cons,
            String.intercalate_cons_cons]
          simpa using separated

/-- An instruction whose text is that of a canonical one with line feeds. -/
theorem exists_lineFed_instruction {content : Instruction} (canonical : content.IsCanonical) :
    ∃ fed : Instruction, fed.IsCanonical ∧ BecomesFed content.text.toList fed.text.toList := by
  have areOperands : ∀ operand ∈ content.operands.map lineFed, IsOperand operand := by
    intro operand member
    obtain ⟨own, isOwn, rfl⟩ := List.mem_map.mp member
    exact (canonical.operands own isOwn).lineFed
  have several : content.operands.map lineFed ≠ [""] := by
    intro single
    obtain ⟨operand, isOnly, isEmpty⟩ := List.map_eq_singleton_iff.mp single
    have empty := congrArg String.toList isEmpty
    rw [Text.toList_lineFed] at empty
    have none := Text.withLineFeeds_eq_nil_iff.mp empty
    exact canonical.several (isOnly.trans (congrArg ([·]) (String.toList_inj.mp none)))
  have isFed := Instruction.make_isCanonical canonical.mnemonic areOperands several
  rw [String.ofList_toList] at isFed
  have sameMnemonic : (Instruction.make content.mnemonic (content.operands.map lineFed)).mnemonic =
      content.mnemonic :=
    (rfl : _ = (Instruction.make content.mnemonic content.operands).mnemonic).trans
      (congrArg Instruction.mnemonic canonical.made)
  have sameOperands : (Instruction.make content.mnemonic (content.operands.map lineFed)).operands =
      content.operands.map lineFed := Instruction.map_trim_of_isOperand areOperands
  refine ⟨_, isFed, ?_⟩
  have noReturn : '\r' ∉ content.mnemonic.toList ++ ['('] := by
    intro member
    rcases List.mem_append.mp member with inMnemonic | isSign
    · exact absurd (canonical.mnemonic.continues _ inMnemonic) (by decide)
    · exact absurd isSign (by decide)
  rw [isFed.text_eq, sameMnemonic, sameOperands, canonical.text_eq]
  simpa [Instruction.format] using
    (becomesFed_of_not_mem noReturn).append (becomesFed_operands content.operands)

/-! ### Trees -/

mutual

theorem exists_lineFed_node (node : Node) (canonical : node.IsCanonical) :
    ∃ fed : Node, fed.IsCanonical ∧ BecomesFed node.text.toList fed.text.toList := by
  cases node with
  | instruction content =>
      obtain ⟨fed, isFed, becomes⟩ :=
        exists_lineFed_instruction (isCanonical_instruction_iff.mp canonical)
      exact ⟨.instruction fed, .instruction isFed, becomes⟩
  | branch rails =>
      cases canonical with
      | branch nonempty railsCanonical =>
          obtain ⟨fed, stillNonempty, areFed, becomes⟩ :=
            exists_lineFed_rails rails nonempty railsCanonical
          refine ⟨.branch fed, .branch stillNonempty areFed, ?_⟩
          have opens : BecomesFed ['['] ['['] := becomesFed_of_not_mem (by decide)
          have closes : BecomesFed [']'] [']'] := becomesFed_of_not_mem (by decide)
          rw [Node.text, Node.text]
          simpa using opens.append (becomes.append closes)

theorem exists_lineFed_rail (nodes : List Node) (canonical : AreCanonical nodes) :
    ∃ fed : List Node, AreCanonical fed ∧
      BecomesFed (railText nodes).toList (railText fed).toList := by
  cases nodes with
  | nil => exact ⟨[], canonical, becomesFed_of_not_mem List.not_mem_nil⟩
  | cons node rest =>
      obtain ⟨nodeCanonical, restCanonical⟩ := areCanonical_cons_iff.mp canonical
      obtain ⟨first, firstFed, firstBecomes⟩ := exists_lineFed_node node nodeCanonical
      obtain ⟨others, othersFed, othersBecome⟩ := exists_lineFed_rail rest restCanonical
      refine ⟨first :: others, areCanonical_cons_iff.mpr ⟨firstFed, othersFed⟩, ?_⟩
      rw [railText, railText, String.toList_append, String.toList_append]
      exact firstBecomes.append othersBecome

theorem exists_lineFed_rails (rails : List (List Node)) (nonempty : rails ≠ [])
    (canonical : ∀ rail ∈ rails, AreCanonical rail) :
    ∃ fed : List (List Node), fed ≠ [] ∧ (∀ rail ∈ fed, AreCanonical rail) ∧
      BecomesFed (railsText rails).toList (railsText fed).toList := by
  cases rails with
  | nil => exact absurd rfl nonempty
  | cons rail rest =>
      obtain ⟨railCanonical, restCanonical⟩ := List.forall_mem_cons.mp canonical
      obtain ⟨first, firstFed, firstBecomes⟩ := exists_lineFed_rail rail railCanonical
      rcases eq_or_ne rest [] with rfl | further
      · exact ⟨[first], List.cons_ne_nil _ _, List.forall_mem_singleton.mpr firstFed, firstBecomes⟩
      · obtain ⟨others, stillFurther, othersFed, othersBecome⟩ :=
          exists_lineFed_rails rest further restCanonical
        refine ⟨first :: others, List.cons_ne_nil _ _,
          List.forall_mem_cons.mpr ⟨firstFed, othersFed⟩, ?_⟩
        have separates : BecomesFed [','] [','] := becomesFed_of_not_mem (by decide)
        rw [railsText_cons rail further, railsText_cons first stillFurther]
        simpa using firstBecomes.append (separates.append othersBecome)

end

/-- The text of a canonical tree with line feeds is that of a canonical tree. -/
theorem exists_lineFed_text {nodes : List Node} (canonical : AreCanonical nodes) :
    ∃ fed : List Node, AreCanonical fed ∧ text fed = lineFed (text nodes) := by
  obtain ⟨fed, areFed, becomes⟩ := exists_lineFed_rail nodes canonical
  refine ⟨fed, areFed, ?_⟩
  have semicolon : BecomesFed [';'] [';'] := becomesFed_of_not_mem (by decide)
  have whole := becomes.append semicolon []
  apply String.toList_inj.mp
  rw [List.append_nil, withLineFeeds, List.append_nil] at whole
  rw [Text.toList_lineFed, text, text, String.toList_append, String.toList_append]
  exact whole.symm

/-! ### Blanks -/

theorem exists_first_of_isCanonical {node : Node} (canonical : node.IsCanonical) :
    ∃ first rest, node.text.toList = first :: rest ∧ ¬ Text.isBlank first := by
  cases canonical with
  | @instruction content canonical =>
      obtain ⟨first, rest, isMnemonic, starts, _⟩ := canonical.mnemonic
      refine ⟨first, rest ++ '(' :: ((",".intercalate content.operands).toList ++ [')']), ?_, ?_⟩
      · simp [Node.text, canonical.text_eq, Instruction.format, isMnemonic]
      · exact (upper_of_continuesMnemonic (continuesMnemonic_of_startsMnemonic starts)).1
  | @branch rails _ _ =>
      refine ⟨'[', (railsText rails).toList ++ [']'], ?_, by decide⟩
      rw [Node.text, String.toList_append, String.toList_append]
      rfl

/-- No blank stands in front of the text of a tree or behind it. -/
theorem trim_text {nodes : List Node} (canonical : AreCanonical nodes) :
    Text.trim (text nodes) = text nodes := by
  have trimmed : Text.trimChars (text nodes).toList = (text nodes).toList := by
    rw [text, String.toList_append]
    apply Text.trimChars_eq_self_iff.mpr
    constructor
    · intro char isFirst
      cases nodes with
      | nil =>
          cases isFirst
          decide
      | cons node rest =>
          obtain ⟨first, more, begins, solid⟩ :=
            exists_first_of_isCanonical (canonical node List.mem_cons_self)
          rw [railText, String.toList_append, begins] at isFirst
          cases isFirst
          exact solid
    · intro char isLast
      rw [show ";".toList = [';'] from rfl, List.getLast?_concat] at isLast
      cases isLast
      decide
  rw [Text.trim, trimmed, String.ofList_toList]

end RungText
end LadderDiagram
