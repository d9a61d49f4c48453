import LadderDiagram.Proofs.RungText.Reading

/-!
# Reading back printed rung text

The scanner is in one of two modes, and a token is as long as it can be, so whether a
piece of text is read in one way depends on the state of the reader before it and on the
character behind it.  Here pieces are put together under these conditions: the characters
of an operand, the operands of an instruction, the nodes of a rail and the rails of a
branch.  In the end the text of a canonical tree is read as that tree.
-/

namespace LadderDiagram
namespace RungText

/-- The number of open parentheses with which the scanner goes on in a state of the reader. -/
def ReadState.depth : ReadState → Nat
  | .inOperands state => state.depth + 1
  | _ => 0

/--
Before `rest`, a piece of text consists of whole tokens that take the reader, with the
scanner in its mode, from one state to another one.
-/
def Reads (before : ReadState) (chars rest : List Char) (after : ReadState) : Prop :=
  ∀ offset, ∃ tokens last,
    scan before.depth offset (chars ++ rest) =
      tokens.map Lexeme.token ++ scan after.depth last rest ∧
    before.run tokens = .ok after

/-! ### Putting pieces together -/

theorem ReadState.run_append {before between : ReadState} {first second : List Token}
    (runs : before.run first = .ok between) :
    before.run (first ++ second) = between.run second := by
  induction first generalizing before with
  | nil =>
      cases runs
      rfl
  | cons token more ih =>
      obtain ⟨next, steps, runsOn⟩ := ReadState.exists_of_run_cons runs
      rw [List.cons_append, ReadState.run, steps]
      exact ih runsOn

theorem Reads.nil (state : ReadState) (rest : List Char) : Reads state [] rest state :=
  fun offset => ⟨[], offset, rfl, rfl⟩

theorem Reads.append {before between after : ReadState} {first second rest : List Char}
    (readsFirst : Reads before first (second ++ rest) between)
    (readsSecond : Reads between second rest after) :
    Reads before (first ++ second) rest after := by
  intro offset
  obtain ⟨firstTokens, middle, firstScans, firstRuns⟩ := readsFirst offset
  obtain ⟨secondTokens, last, secondScans, secondRuns⟩ := readsSecond middle
  refine ⟨firstTokens ++ secondTokens, last, ?_, ?_⟩
  · rw [List.append_assoc, firstScans, secondScans, List.map_append, List.append_assoc]
  · rw [ReadState.run_append firstRuns]
    exact secondRuns

/-- A piece that is one token takes the reader one step. -/
theorem Reads.token {before after : ReadState} {chars rest : List Char} (kind : TokenKind)
    (scans : ∀ offset, scan before.depth offset (chars ++ rest) =
      .token ⟨kind, chars, offset⟩ :: scan after.depth (offset + Text.unitLength chars) rest)
    (steps : ∀ offset, before.step ⟨kind, chars, offset⟩ = .ok after) :
    Reads before chars rest after := by
  intro offset
  refine ⟨[⟨kind, chars, offset⟩], offset + Text.unitLength chars, scans offset, ?_⟩
  rw [ReadState.run, steps offset]
  rfl

/-! ### Tokens -/

/-- A run of characters of one sort is cut off where the next one is of another sort. -/
theorem cut_run {keep : Char → Bool} {run rest : List Char} (kept : ∀ char ∈ run, keep char)
    (stops : ∀ first ∈ rest.head?, ¬ keep first) :
    (run ++ rest).takeWhile keep = run ∧ (run ++ rest).dropWhile keep = rest := by
  rw [List.takeWhile_append_of_pos kept, List.dropWhile_append_of_pos kept]
  cases rest with
  | nil => exact ⟨List.append_nil run, rfl⟩
  | cons first others =>
      have stop : ¬ keep first := stops first rfl
      rw [List.takeWhile_cons_of_neg stop, List.dropWhile_cons_of_neg stop, List.append_nil]
      exact ⟨rfl, rfl⟩

section Scanning

variable {depth offset : Nat} {char : Char} {kind : TokenKind} {image rest : List Char}

theorem scan_rungPunctuation (punctuates : rungPunctuation? char = some kind) :
    scan 0 offset (char :: rest) =
      .token ⟨kind, [char], offset⟩ ::
        scan (depthAfter 0 kind) (offset + Text.unitLength [char]) rest := by
  have plain : isSpace char = false ∧ startsMnemonic char = false := by
    unfold rungPunctuation? at punctuates
    split_ifs at punctuates with first second third fourth fifth
    · obtain rfl := beq_iff_eq.mp first
      decide
    · obtain rfl := beq_iff_eq.mp second
      decide
    · obtain rfl := beq_iff_eq.mp third
      decide
    · obtain rfl := beq_iff_eq.mp fourth
      decide
    · obtain rfl := beq_iff_eq.mp fifth
      decide
  rw [scan, if_pos rfl]
  simp only [plain.1, plain.2, Bool.false_eq_true, if_false, punctuates]
  rfl

theorem scan_mnemonic (isMnemonic : IsMnemonic image)
    (stops : ∀ first ∈ rest.head?, ¬ continuesMnemonic first) :
    scan 0 offset (image ++ rest) =
      .token ⟨.mnemonic, image, offset⟩ :: scan 0 (offset + Text.unitLength image) rest := by
  obtain ⟨first, more, rfl, starts, continues⟩ := isMnemonic
  obtain ⟨taken, dropped⟩ := cut_run continues stops
  have solid : ¬ isSpace first := by
    intro space
    simp only [isSpace, Bool.or_eq_true, beq_iff_eq] at space
    rcases space with ((rfl | rfl) | rfl) | rfl
    all_goals exact absurd starts (by decide)
  rw [List.cons_append, scan, if_pos rfl, if_neg solid, if_pos starts, taken, dropped]

theorem scan_operandPunctuation (punctuates : operandPunctuation? char = some kind) :
    scan (depth + 1) offset (char :: rest) =
      .token ⟨kind, [char], offset⟩ ::
        scan (depthAfter (depth + 1) kind) (offset + Text.unitLength [char]) rest := by
  rw [scan, if_neg (Nat.succ_ne_zero depth)]
  simp only [punctuates]
  rfl

theorem scan_operandText (first : isOperandText char) (others : ∀ own ∈ image, isOperandText own)
    (stops : ∀ own ∈ rest.head?, ¬ isOperandText own) :
    scan (depth + 1) offset (char :: image ++ rest) =
      .token ⟨.operandText, char :: image, offset⟩ ::
        scan (depth + 1) (offset + Text.unitLength (char :: image)) rest := by
  obtain ⟨taken, dropped⟩ := cut_run others stops
  rw [List.cons_append, scan, if_neg (Nat.succ_ne_zero depth)]
  simp only [Option.isNone_iff_eq_none.mp first, taken, dropped]

end Scanning

/-! ### Instructions -/

section Operands

variable {state : OperandState} {after : Nat} {rest : List Char}

/-- A parenthesis or comma within an operand is a token that keeps the reader in the operand. -/
theorem step_operandPunctuation {char : Char} {kind : TokenKind} (offset : Nat)
    (punctuates : operandPunctuation? char = some kind)
    (goesOn : depthAfterChar? state.depth char = some after) :
    state.step ⟨kind, [char], offset⟩ =
        .ok (.inOperands { state with operand := char :: state.operand, depth := after }) ∧
      depthAfter (state.depth + 1) kind = after + 1 := by
  obtain ⟨rail, mnemonic, operands, operand, depth⟩ := state
  unfold depthAfterChar? at goesOn
  rw [punctuates] at goesOn
  unfold operandPunctuation? at punctuates
  split_ifs at punctuates
  · cases punctuates
    cases goesOn
    exact ⟨rfl, rfl⟩
  all_goals
    cases punctuates
    cases depth with
    | zero => cases goesOn
    | succ outer =>
        cases goesOn
        exact ⟨rfl, rfl⟩

/-- Where operand text has been taken as far as it goes, no operand text follows. -/
theorem stops_dropWhile (more : List Char)
    (stops : ∀ first ∈ rest.head?, ¬ isOperandText first) :
    ∀ first ∈ (more.dropWhile isOperandText ++ rest).head?, ¬ isOperandText first := by
  intro first isFirst
  have left := List.head?_dropWhile_not isOperandText more
  cases dropped : more.dropWhile isOperandText with
  | nil =>
      rw [dropped] at isFirst
      exact stops first isFirst
  | cons own others =>
      rw [dropped] at isFirst left
      cases isFirst
      exact Bool.eq_false_iff.mp left

/-- The characters of an operand, up to a parenthesis or comma, are added to it. -/
theorem reads_operand (chars : List Char) (state : OperandState)
    (closes : depthAfter? state.depth chars = some after)
    (stops : ∀ first ∈ rest.head?, ¬ isOperandText first) :
    Reads (.inOperands state) chars rest
      (.inOperands { state with operand := chars.reverse ++ state.operand, depth := after }) := by
  match chars with
  | [] =>
      cases closes
      exact .nil (.inOperands state) rest
  | char :: more =>
      cases punctuates : operandPunctuation? char with
      | some kind =>
          obtain ⟨between, goesOn, closesMore⟩ := Option.bind_eq_some_iff.mp closes
          have first : Reads (.inOperands state) [char] (more ++ rest)
              (.inOperands { state with operand := char :: state.operand, depth := between }) := by
            refine .token kind (fun offset => ?_) fun offset =>
              (step_operandPunctuation offset punctuates goesOn).1
            have scans : scan (state.depth + 1) offset (char :: (more ++ rest)) = _ :=
              scan_operandPunctuation punctuates
            rw [(step_operandPunctuation offset punctuates goesOn).2] at scans
            exact scans
          have others := first.append (reads_operand more _ closesMore stops)
          simpa using others
      | none =>
          have isText : isOperandText char := Option.isNone_iff_eq_none.mpr punctuates
          have split := List.takeWhile_append_dropWhile (p := isOperandText) (l := more)
          have taken : ∀ own ∈ more.takeWhile isOperandText, isOperandText own :=
            fun own member => List.mem_takeWhile_imp member
          have closesMore :
              depthAfter? state.depth (more.dropWhile isOperandText) = some after := by
            rw [depthAfter?_cons, depthAfterChar?_of_isOperandText isText, Option.bind_some,
              ← split, depthAfter?_append, depthAfter?_of_isOperandText taken] at closes
            exact closes
          have first : Reads (.inOperands state) (char :: more.takeWhile isOperandText)
              (more.dropWhile isOperandText ++ rest)
              (.inOperands { state with
                operand := (char :: more.takeWhile isOperandText).reverse ++ state.operand }) :=
            .token .operandText
              (fun offset => scan_operandText isText taken (stops_dropWhile more stops))
              fun offset => rfl
          have others := first.append
            (reads_operand (more.dropWhile isOperandText) _ closesMore stops)
          rw [List.cons_append, split] at others
          rw [← List.append_assoc, ← List.reverse_append, List.cons_append, split] at others
          exact others
termination_by chars.length
decreasing_by
  · exact Nat.lt_succ_of_le (length_dropWhile_le _ _)
  · exact Nat.lt_succ_self _

theorem complete_of_isOperand (rail : RailState) (mnemonic : List Char) (before : List String)
    {operand : String} (isOperand : IsOperand operand) :
    OperandState.complete ⟨rail, mnemonic, before, operand.toList.reverse ++ [], 0⟩ =
      before.reverse ++ [operand] := by
  unfold OperandState.complete
  rw [List.append_nil, List.reverse_reverse, String.ofList_toList, isOperand.trimmed,
    List.reverse_cons]

/-- The text of the operands, with commas between them and the closing parenthesis behind them. -/
theorem reads_operands (rail : RailState) (mnemonic : List Char) (before : List String)
    (operand : String) (others : List String)
    (areOperands : ∀ own ∈ operand :: others, IsOperand own) (rest : List Char) :
    Reads (.inOperands ⟨rail, mnemonic, before, [], 0⟩)
      ((",".intercalate (operand :: others)).toList ++ [')']) rest
      (.onRail (rail.push (.instruction (Instruction.make (String.ofList mnemonic)
        (if before.reverse ++ operand :: others == [""] then []
          else before.reverse ++ operand :: others))))) := by
  induction others generalizing before operand with
  | nil =>
      have isOperand : IsOperand operand := areOperands operand List.mem_cons_self
      have stops : ∀ first ∈ ([')'] ++ rest).head?, ¬ isOperandText first := by
        rintro _ ⟨⟩
        decide
      rw [String.intercalate_singleton]
      apply (reads_operand operand.toList _ isOperand.closes stops).append
      refine .token .rightParenthesis (fun offset => scan_operandPunctuation rfl) fun offset => ?_
      unfold ReadState.step OperandState.step
      simp only [OperandState.instruction, complete_of_isOperand rail mnemonic before isOperand]
  | cons next others ih =>
      obtain ⟨isOperand, areOthers⟩ := List.forall_mem_cons.mp areOperands
      have split : (",".intercalate (operand :: next :: others)).toList ++ [')'] =
          operand.toList ++ ([','] ++ ((",".intercalate (next :: others)).toList ++ [')'])) := by
        rw [String.intercalate_cons_cons, String.toList_append, String.toList_append,
          List.append_assoc, List.append_assoc]
        rfl
      have stops : ∀ first ∈ ([','] ++ ((",".intercalate (next :: others)).toList ++ [')']) ++
          rest).head?, ¬ isOperandText first := by
        rintro _ ⟨⟩
        decide
      have separates : Reads (.inOperands ⟨rail, mnemonic, before, operand.toList.reverse ++ [], 0⟩)
          [','] ((",".intercalate (next :: others)).toList ++ [')'] ++ rest)
          (.inOperands ⟨rail, mnemonic, operand :: before, [], 0⟩) := by
        refine .token .operandSeparator (fun offset => scan_operandPunctuation rfl) fun offset => ?_
        unfold ReadState.step OperandState.step
        simp only [complete_of_isOperand rail mnemonic before isOperand, List.reverse_append,
          List.reverse_reverse, List.reverse_singleton, List.singleton_append]
      have later := ih (operand :: before) next areOthers
      rw [List.reverse_cons, List.append_assoc, List.singleton_append] at later
      rw [split]
      exact (reads_operand operand.toList _ isOperand.closes stops).append (separates.append later)

/-- The operands as they are written: no operand at all is written like one empty operand. -/
theorem exists_written_operands {content : Instruction} (canonical : content.IsCanonical) :
    ∃ operand others, (∀ own ∈ operand :: others, IsOperand own) ∧
      ",".intercalate (operand :: others) = ",".intercalate content.operands ∧
      (if operand :: others == [""] then [] else operand :: others) = content.operands := by
  cases given : content.operands with
  | nil =>
      refine ⟨"", [], ?_, ?_, ?_⟩
      · intro own member
        obtain rfl := List.mem_singleton.mp member
        exact ⟨by decide, rfl⟩
      · rw [String.intercalate_singleton, String.intercalate_nil]
      · rfl
  | cons operand others =>
      have several := canonical.several
      rw [given] at several
      refine ⟨operand, others, ?_, rfl, ?_⟩
      · rw [← given]
        exact canonical.operands
      · simp only [beq_iff_eq, several, if_false]

theorem reads_instruction {content : Instruction} (canonical : content.IsCanonical)
    (rail : RailState) (rest : List Char) :
    Reads (.onRail rail) content.text.toList rest (.onRail (rail.push (.instruction content))) := by
  obtain ⟨operand, others, areOperands, sameText, sameOperands⟩ := exists_written_operands canonical
  have split : content.text.toList = content.mnemonic.toList ++
      (['('] ++ ((",".intercalate (operand :: others)).toList ++ [')'])) := by
    rw [canonical.text_eq, Instruction.format, sameText]
    simp only [String.toList_append, List.append_assoc]
    rfl
  have starts : Reads (.onRail rail) content.mnemonic.toList
      (['('] ++ ((",".intercalate (operand :: others)).toList ++ [')']) ++ rest)
      (.afterMnemonic rail content.mnemonic.toList) := by
    have stops : ∀ first ∈ (['('] ++ ((",".intercalate (operand :: others)).toList ++ [')']) ++
        rest).head?, ¬ continuesMnemonic first := by
      rintro _ ⟨⟩
      decide
    exact .token .mnemonic (fun offset => scan_mnemonic canonical.mnemonic stops) fun offset => rfl
  have opens : Reads (.afterMnemonic rail content.mnemonic.toList) ['(']
      ((",".intercalate (operand :: others)).toList ++ [')'] ++ rest)
      (.inOperands ⟨rail, content.mnemonic.toList, [], [], 0⟩) :=
    .token .leftParenthesis (fun offset => scan_rungPunctuation rfl) fun offset => rfl
  have closes := reads_operands rail content.mnemonic.toList [] operand others areOperands rest
  rw [List.reverse_nil, List.nil_append, sameOperands, String.ofList_toList,
    canonical.made] at closes
  rw [split]
  exact starts.append (opens.append closes)

end Operands

/-! ### Trees -/

section Brackets

variable (rail : RailState) (branch : OpenBranch) (outer : List OpenBranch) (nodes : List Node)
  (rest : List Char)

theorem reads_leftBracket : Reads (.onRail rail) ['['] rest (.onRail rail.enter) :=
  .token .leftBracket (fun _ => scan_rungPunctuation rfl) fun _ => rfl

theorem reads_comma :
    Reads (.onRail ⟨branch :: outer, nodes⟩) [','] rest
      (.onRail ⟨{ branch with rails := nodes.reverse :: branch.rails } :: outer, []⟩) :=
  .token .comma (fun _ => scan_rungPunctuation rfl) fun _ => rfl

theorem reads_rightBracket :
    Reads (.onRail ⟨branch :: outer, nodes⟩) [']'] rest
      (.onRail ⟨outer, .branch (nodes.reverse :: branch.rails).reverse :: branch.before⟩) :=
  .token .rightBracket (fun _ => scan_rungPunctuation rfl) fun _ => rfl

end Brackets

mutual

theorem reads_node (rail : RailState) (rest : List Char) :
    ∀ node : Node, node.IsCanonical →
      Reads (.onRail rail) node.text.toList rest (.onRail (rail.push node))
  | .instruction content, canonical => by
      cases canonical with
      | instruction contentCanonical => exact reads_instruction contentCanonical rail rest
  | .branch rails, canonical => by
      cases canonical with
      | branch nonempty railsCanonical =>
          have opens := reads_leftBracket rail ((railsText rails).toList ++ [']'] ++ rest)
          have closes := reads_rails ⟨rail.nodes, []⟩ rail.openBranches rest rails nonempty
            railsCanonical
          have split : (Node.branch rails).text.toList =
              ['['] ++ ((railsText rails).toList ++ [']']) := by
            simp only [Node.text, String.toList_append, List.append_assoc]
            rfl
          rw [split]
          exact opens.append closes

theorem reads_rail (rail : RailState) (rest : List Char) :
    ∀ nodes : List Node, AreCanonical nodes →
      Reads (.onRail rail) (railText nodes).toList rest
        (.onRail ⟨rail.openBranches, nodes.reverse ++ rail.nodes⟩)
  | [], _ => .nil (.onRail rail) rest
  | node :: others, canonical => by
      obtain ⟨nodeCanonical, othersCanonical⟩ := List.forall_mem_cons.mp canonical
      have first := reads_node rail ((railText others).toList ++ rest) node nodeCanonical
      have second := reads_rail (rail.push node) rest others othersCanonical
      rw [railText, String.toList_append, List.reverse_cons, List.append_assoc]
      exact first.append second

/-- The text of the rails of a branch with the closing bracket behind it. -/
theorem reads_rails (branch : OpenBranch) (outer : List OpenBranch) (rest : List Char) :
    ∀ rails : List (List Node), rails ≠ [] → (∀ rail ∈ rails, AreCanonical rail) →
      Reads (.onRail ⟨branch :: outer, []⟩) ((railsText rails).toList ++ [']']) rest
        (.onRail ⟨outer, .branch (branch.rails.reverse ++ rails) :: branch.before⟩)
  | [], nonempty, _ => absurd rfl nonempty
  | [last], _, canonical => by
      have reads := reads_rail ⟨branch :: outer, []⟩ ([']'] ++ rest) last
        (canonical last List.mem_cons_self)
      have closes := reads_rightBracket branch outer (last.reverse ++ []) rest
      rw [List.append_nil, List.reverse_reverse, List.reverse_cons] at closes
      rw [List.append_nil] at reads
      exact reads.append closes
  | first :: second :: others, _, canonical => by
      obtain ⟨firstCanonical, othersCanonical⟩ := List.forall_mem_cons.mp canonical
      have reads := reads_rail ⟨branch :: outer, []⟩
        ([','] ++ ((railsText (second :: others)).toList ++ [']']) ++ rest) first firstCanonical
      have separates := reads_comma branch outer (first.reverse ++ [])
        ((railsText (second :: others)).toList ++ [']'] ++ rest)
      have later := reads_rails { branch with rails := first :: branch.rails } outer rest
        (second :: others) (List.cons_ne_nil second others) othersCanonical
      have split : (railsText (first :: second :: others)).toList ++ [']'] =
          (railText first).toList ++
            ([','] ++ ((railsText (second :: others)).toList ++ [']'])) := by
        simp only [railsText, String.toList_append, List.append_assoc]
        rfl
      rw [List.append_nil, List.reverse_reverse] at separates
      rw [List.append_nil] at reads
      rw [List.reverse_cons, List.append_assoc, List.singleton_append] at later
      rw [split]
      exact reads.append (separates.append later)

end

theorem filterMap_map_token (tokens : List Token) :
    (tokens.map Lexeme.token).filterMap Lexeme.token? = tokens := by
  rw [List.filterMap_map]
  exact List.filterMap_some

/-- A text of nothing but tokens is read as its tokens are. -/
theorem parse_of_lexemes {source : String} {tokens : List Token} {nodes : List Node}
    (scans : lexemes source.toList = tokens.map Lexeme.token)
    (reads : readTokens tokens = .ok nodes) : parse source = .ok nodes := by
  have noFault : (tokens.map Lexeme.token).filterMap Diagnostic.ofLexeme? = [] := by
    rw [List.filterMap_map]
    exact List.filterMap_eq_nil_iff.mpr fun token _ => rfl
  simp only [parse, parseChars, scans, filterMap_map_token, noFault, reads]

/-- The text of a canonical tree is read as that tree. -/
theorem parse_text {nodes : List Node} (canonical : AreCanonical nodes) :
    parse (text nodes) = .ok nodes := by
  obtain ⟨tokens, last, scans, runs⟩ := reads_rail .empty [';'] nodes canonical 0
  have semicolon : scan 0 last [';'] = [.token ⟨.semicolon, [';'], last⟩] := by
    rw [scan_rungPunctuation rfl, scan]
  have whole : lexemes (text nodes).toList =
      (tokens ++ [(⟨.semicolon, [';'], last⟩ : Token)]).map Lexeme.token := by
    rw [List.map_append, lexemes, text, String.toList_append]
    exact scans.trans (congrArg _ semicolon)
  apply parse_of_lexemes whole
  unfold readTokens ReadState.start
  rw [ReadState.run_append runs]
  simp only [ReadState.run, ReadState.step, RailState.step, RailState.empty, ReadState.finish,
    List.append_nil, List.reverse_reverse]

end RungText
end LadderDiagram
