import LadderDiagram.Proofs.RungText.Derivation

/-!
# The texts that are read

A text of the grammar is read as the tree of its derivation: piece by piece, each piece
takes the reader on as the grammar says.  Together with the derivations of what is read
this makes reading and the grammar the same thing.  A text outside of the grammar is
refused with a list of faults that is not empty.
-/

namespace LadderDiagram
namespace RungText

variable {rest : List Char}

/-! ### Pieces of a text -/

theorem scan_spaces {spaces : List Char} (areSpaces : AreSpaces spaces) (offset : Nat) :
    ∃ last, scan 0 offset (spaces ++ rest) = scan 0 last rest := by
  induction spaces generalizing offset with
  | nil => exact ⟨offset, rfl⟩
  | cons char more ih =>
      obtain ⟨space, others⟩ := List.forall_mem_cons.mp areSpaces
      obtain ⟨last, scans⟩ := ih others (offset + Text.unitCount char)
      refine ⟨last, ?_⟩
      rw [List.cons_append, scan, if_pos rfl, if_pos space]
      exact scans

/-- Between tokens outside of parentheses, spaces change nothing. -/
theorem reads_spaces {spaces : List Char} (areSpaces : AreSpaces spaces) {state : ReadState}
    (outside : state.depth = 0) : Reads state spaces rest state := by
  intro offset
  obtain ⟨last, scans⟩ : ∃ last, scan 0 offset (spaces ++ rest) = scan 0 last rest :=
    scan_spaces areSpaces offset
  refine ⟨[], last, ?_, rfl⟩
  rw [outside]
  exact scans

/-- The arguments of an instruction up to the parenthesis that closes it. -/
theorem reads_arguments (arguments : List Char) (state : OperandState)
    (closes : parenthesesAfter? state.depth arguments = some 0) :
    Reads (.inOperands state) (arguments ++ [')']) rest
      (.onRail (state.rail.push (.instruction (state.instructionBehind arguments)))) := by
  match arguments with
  | [] =>
      obtain ⟨rail, mnemonic, operands, operand, depth⟩ := state
      obtain rfl : depth = 0 := Option.some.inj closes
      rw [OperandState.instructionBehind_nil]
      exact .token .rightParenthesis (fun _ => scan_operandPunctuation rfl) fun _ => rfl
  | char :: more =>
      cases punctuates : operandPunctuation? char with
      | some kind =>
          rcases state.argument_cases punctuates with
            ⟨rfl, outside, _⟩ | ⟨inner, sameRail, stays, sameAnswer⟩
          · rw [parenthesesAfter?, if_neg (by decide), if_pos rfl, if_pos outside] at closes
            cases closes
          · obtain ⟨sameDepth, sameInstruction⟩ := sameAnswer more
            rw [sameDepth] at closes
            have steps : (ReadState.inOperands state).step _ = .ok _ := stays 0
            have mode := ReadState.depth_of_step steps
            have first : Reads (.inOperands state) [char] (more ++ [')'] ++ rest)
                (.inOperands inner) := by
              refine .token kind (fun offset => ?_) stays
              rw [mode]
              exact scan_operandPunctuation punctuates
            rw [sameInstruction, ← sameRail]
            exact first.append (reads_arguments more inner closes)
      | none =>
          have isText : isOperandText char := Option.isNone_iff_eq_none.mpr punctuates
          have taken : ∀ own ∈ char :: more.takeWhile isOperandText, isOperandText own :=
            List.forall_mem_cons.mpr ⟨isText, fun own member => List.mem_takeWhile_imp member⟩
          have split : char :: more =
              char :: more.takeWhile isOperandText ++ more.dropWhile isOperandText := by
            rw [List.cons_append, List.takeWhile_append_dropWhile]
          have stops : ∀ own ∈ ([')'] ++ rest).head?, ¬ isOperandText own := by
            rintro _ ⟨⟩
            decide
          have first : Reads (.inOperands state) (char :: more.takeWhile isOperandText)
              (more.dropWhile isOperandText ++ [')'] ++ rest)
              (.inOperands
                (state.take ⟨.operandText, char :: more.takeWhile isOperandText, 0⟩)) := by
            refine .token .operandText (fun offset => ?_) fun offset => rfl
            rw [List.append_assoc]
            exact scan_operandText isText (List.forall_mem_cons.mp taken).2
              (stops_dropWhile more stops)
          rw [split, parenthesesAfter?_text taken] at closes
          rw [split, List.append_assoc, state.instructionBehind_text taken]
          exact first.append (reads_arguments (more.dropWhile isOperandText)
            (state.take ⟨.operandText, char :: more.takeWhile isOperandText, 0⟩) closes)
termination_by arguments.length
decreasing_by
  · exact Nat.lt_succ_of_le (length_dropWhile_le _ _)
  · exact Nat.lt_succ_self _

/-- A mnemonic, spaces and an argument string in parentheses are read as one instruction. -/
theorem reads_instructionText {mnemonic spaces arguments : List Char}
    (isMnemonic : IsMnemonic mnemonic) (areSpaces : AreSpaces spaces)
    (closes : parenthesesAfter? 0 arguments = some 0) (rail : RailState) :
    Reads (.onRail rail) (mnemonic ++ (spaces ++ ('(' :: (arguments ++ [')'])))) rest
      (.onRail (rail.push (.instruction (instructionWith mnemonic (operandsOf arguments))))) := by
  have stops : ∀ first ∈ (spaces ++ ('(' :: (arguments ++ [')'])) ++ rest).head?,
      ¬ continuesMnemonic first := by
    intro first isFirst
    cases spaces with
    | nil =>
        cases isFirst
        decide
    | cons space more =>
        have isSpace : RungText.isSpace space := areSpaces space List.mem_cons_self
        cases isFirst
        simp only [RungText.isSpace, Bool.or_eq_true, beq_iff_eq] at isSpace
        rcases isSpace with ((rfl | rfl) | rfl) | rfl
        all_goals decide
  have starts : Reads (.onRail rail) mnemonic (spaces ++ ('(' :: (arguments ++ [')'])) ++ rest)
      (.afterMnemonic rail mnemonic) :=
    .token .mnemonic (fun _ => scan_mnemonic isMnemonic stops) fun _ => rfl
  have opens : Reads (.afterMnemonic rail mnemonic) ['('] (arguments ++ [')'] ++ rest)
      (.inOperands ⟨rail, mnemonic, [], [], 0⟩) :=
    .token .leftParenthesis (fun _ => scan_rungPunctuation rfl) fun _ => rfl
  have ends : Reads _ (arguments ++ [')']) rest _ :=
    reads_arguments arguments ⟨rail, mnemonic, [], [], 0⟩ closes
  rw [instructionBehind_eq isMnemonic] at ends
  exact starts.append ((reads_spaces areSpaces rfl).append (opens.append ends))

/-! ### Trees -/

mutual

theorem reads_elementText {chars : List Char} {node : Node} (isElement : IsElement chars node)
    (rail : RailState) (rest : List Char) :
    Reads (.onRail rail) chars rest (.onRail (rail.push node)) :=
  match isElement with
  | .instruction isMnemonic areSpaces closes =>
      reads_instructionText isMnemonic areSpaces closes rail
  | .branch areRails =>
      (reads_leftBracket rail _).append (reads_furtherText areRails ⟨rail.nodes, []⟩ _ rest)

theorem reads_railText {chars : List Char} {nodes : List Node} (isRail : IsRail chars nodes)
    (rail : RailState) (rest : List Char) :
    Reads (.onRail rail) chars rest (.onRail ⟨rail.openBranches, nodes.reverse ++ rail.nodes⟩) := by
  cases isRail with
  | spaces areSpaces => exact reads_spaces areSpaces rfl
  | @element _ _ others node _ areSpaces isElement isRest =>
      have first := reads_elementText isElement rail (others ++ rest)
      have later := reads_railText isRest (rail.push node) rest
      rw [List.reverse_cons, List.append_assoc]
      exact (reads_spaces areSpaces rfl).append (first.append later)

/-- The rails of a branch that are still to come, with the closing bracket behind them. -/
theorem reads_furtherText {chars : List Char} {rails : List (List Node)}
    (areRails : AreRails chars rails) (branch : OpenBranch) (outer : List OpenBranch)
    (rest : List Char) :
    Reads (.onRail ⟨branch :: outer, []⟩) (chars ++ [']']) rest
      (.onRail ⟨outer, .branch (branch.rails.reverse ++ rails) :: branch.before⟩) := by
  cases areRails with
  | @last _ rail isRail =>
      have reads := reads_railText isRail ⟨branch :: outer, []⟩ ([']'] ++ rest)
      have closes := reads_rightBracket branch outer rail.reverse rest
      rw [List.reverse_reverse, List.reverse_cons] at closes
      rw [List.append_nil] at reads
      exact reads.append closes
  | @further first others rail rails isRail areOthers =>
      have reads := reads_railText isRail ⟨branch :: outer, []⟩
        ([','] ++ (others ++ [']']) ++ rest)
      have separates := reads_comma branch outer rail.reverse (others ++ [']'] ++ rest)
      have later := reads_furtherText areOthers { branch with rails := rail :: branch.rails } outer
        rest
      rw [List.append_nil] at reads
      rw [List.reverse_reverse] at separates
      rw [List.reverse_cons, List.append_assoc, List.singleton_append] at later
      rw [List.append_assoc, List.cons_append]
      exact reads.append (separates.append later)

end

/-! ### Whole texts -/

/-- A text that takes the reader to a state in which it may end is read as that state says. -/
theorem parse_of_reads {text : String} {after : ReadState} {nodes : List Node}
    (reads : Reads .start text.toList [] after) (finishes : after.finish = .ok nodes) :
    parse text = .ok nodes := by
  obtain ⟨tokens, last, scans, runs⟩ := reads 0
  have whole : lexemes text.toList = tokens.map Lexeme.token := by
    simpa [lexemes, scan, ReadState.depth, ReadState.start] using scans
  apply parse_of_lexemes whole
  rw [readTokens, runs]
  exact finishes

theorem parse_of_isRung {text : String} {nodes : List Node} (isRung : IsRung text.toList nodes) :
    parse text = .ok nodes := by
  generalize chars : text.toList = own at isRung
  cases isRung with
  | unclosed isRail =>
      have reads := reads_railText isRail .empty []
      refine parse_of_reads (chars ▸ reads) ?_
      simp [ReadState.finish, RailState.empty]
  | @closed rail spaces _ isRail areSpaces =>
      have reads := reads_railText isRail .empty ([';'] ++ spaces ++ [])
      rw [RailState.empty, List.append_nil nodes.reverse] at reads
      have closes : Reads (.onRail ⟨[], nodes.reverse⟩) [';'] (spaces ++ []) (.finished nodes) := by
        refine .token .semicolon (fun _ => scan_rungPunctuation rfl) fun _ => ?_
        simp [ReadState.step, RailState.step]
      have ends := reads.append (closes.append (reads_spaces areSpaces rfl))
      exact parse_of_reads (chars ▸ ends) rfl

theorem faults_ne_nil_of_parse {text : String} {faults : List Diagnostic}
    (refused : parse text = .error faults) : faults ≠ [] := by
  simp only [parse, parseChars] at refused
  split at refused
  next => cases refused
  next several =>
    cases refused
    exact fun empty => several empty

  next =>
    cases refused
    exact List.append_ne_nil_of_right_ne_nil _ (List.cons_ne_nil _ _)

/--
A text is read as a tree if and only if the grammar derives the text with that tree, and a
text that the grammar does not derive is refused with at least one fault.
-/
theorem parse_iff_isRung (text : String) :
    (∀ nodes, parse text = .ok nodes ↔ IsRung text.toList nodes) ∧
      ((¬ ∃ nodes, IsRung text.toList nodes) →
        ∃ faults, faults ≠ [] ∧ parse text = .error faults) := by
  refine ⟨fun nodes => ⟨isRung_of_parse, parse_of_isRung⟩, fun outside => ?_⟩
  cases parses : parse text with
  | ok nodes => exact absurd ⟨nodes, isRung_of_parse parses⟩ outside
  | error faults => exact ⟨faults, faults_ne_nil_of_parse parses, rfl⟩

end RungText
end LadderDiagram
