import LadderDiagram.Proofs.RungText.Grammar
import LadderDiagram.Proofs.RungText.Printing

/-!
# Derivations of what is read

A text that is read has a derivation in the grammar, and the tree that is read is that
of the derivation.  What a state of the reader still asks of the text is written down as
a predicate on what is left: for each open branch its rails and its bracket, and within
parentheses the arguments that are still to come.  One token after the other, from the
last one to the first, this predicate is carried back to the beginning of the text.
-/

namespace LadderDiagram
namespace RungText

/--
What is left of a text on a rail with the nodes `current`, in reverse, inside some open
branches, when the whole text is to be read as `nodes`.
-/
def RailGoesOn (nodes : List Node) : List OpenBranch → List Node → List Char → Prop
  | [], current, chars => ∃ more, IsRung chars more ∧ nodes = current.reverse ++ more
  | branch :: outer, current, chars =>
      ∃ inner first others after, chars = inner ++ ']' :: after ∧
        AreRails inner (first :: others) ∧
        RailGoesOn nodes outer
          (.branch (branch.rails.reverse ++ (current.reverse ++ first) :: others) ::
            branch.before) after

/-- The instruction that an instruction's reader gives if some arguments are still to come. -/
def OperandState.instructionBehind (state : OperandState) (arguments : List Char) : Instruction :=
  Instruction.make (String.ofList state.mnemonic)
    (unlessBlank (state.operands.reverse ++
      (partsBehind state.operand.reverse state.depth arguments).map operandOf))

/-- What is left of a text in a state of its reader, if the whole text is to be read as `nodes`. -/
def GoesOn (nodes : List Node) : ReadState → List Char → Prop
  | .onRail rail, chars => RailGoesOn nodes rail.openBranches rail.nodes chars
  | .afterMnemonic rail mnemonic, chars =>
      ∃ spaces arguments after, chars = spaces ++ '(' :: (arguments ++ ')' :: after) ∧
        AreSpaces spaces ∧ parenthesesAfter? 0 arguments = some 0 ∧
        RailGoesOn nodes rail.openBranches
          (.instruction (OperandState.instructionBehind ⟨rail, mnemonic, [], [], 0⟩ arguments) ::
            rail.nodes) after
  | .inOperands state, chars =>
      ∃ arguments after, chars = arguments ++ ')' :: after ∧
        parenthesesAfter? state.depth arguments = some 0 ∧
        RailGoesOn nodes state.rail.openBranches
          (.instruction (state.instructionBehind arguments) :: state.rail.nodes) after
  | .finished own, chars => AreSpaces chars ∧ nodes = own

variable {nodes : List Node} {char : Char} {rest : List Char}

/-! ### One more piece in front -/

theorem RailGoesOn.prependSpace {opened : List OpenBranch} {current : List Node}
    (goesOn : RailGoesOn nodes opened current rest) (space : isSpace char) :
    RailGoesOn nodes opened current (char :: rest) := by
  cases opened with
  | nil =>
      obtain ⟨more, isRung, same⟩ := goesOn
      exact ⟨more, isRung.prependSpace space, same⟩
  | cons branch outer =>
      obtain ⟨inner, first, others, after, rfl, areRails, outside⟩ := goesOn
      exact ⟨char :: inner, first, others, after, rfl, areRails.prependSpace space, outside⟩

theorem RailGoesOn.prependElement {opened : List OpenBranch} {current : List Node}
    {element : List Char} {node : Node} (goesOn : RailGoesOn nodes opened (node :: current) rest)
    (isElement : IsElement element node) : RailGoesOn nodes opened current (element ++ rest) := by
  cases opened with
  | nil =>
      obtain ⟨more, isRung, same⟩ := goesOn
      refine ⟨node :: more, isRung.prependElement isElement, ?_⟩
      rw [same, List.reverse_cons, List.append_assoc, List.singleton_append]
  | cons branch outer =>
      obtain ⟨inner, first, others, after, rfl, areRails, outside⟩ := goesOn
      rw [List.reverse_cons, List.append_assoc, List.singleton_append] at outside
      exact ⟨element ++ inner, node :: first, others, after, (List.append_assoc _ _ _).symm,
        areRails.prependElement isElement, outside⟩

theorem GoesOn.prependSpace {state : ReadState} (goesOn : GoesOn nodes state rest)
    (outside : state.depth = 0) (space : isSpace char) : GoesOn nodes state (char :: rest) := by
  cases state with
  | onRail rail => exact RailGoesOn.prependSpace goesOn space
  | afterMnemonic rail mnemonic =>
      obtain ⟨spaces, arguments, after, rfl, areSpaces, goesOn⟩ := goesOn
      exact ⟨char :: spaces, arguments, after, rfl, areSpaces.cons space, goesOn⟩
  | inOperands state => exact absurd outside (Nat.succ_ne_zero _)
  | finished own => exact ⟨goesOn.1.cons space, goesOn.2⟩

/-! ### Instructions -/

/-- Operands that have been trimmed already are made into an instruction as they are. -/
theorem make_eq_instructionWith {mnemonic : List Char} (isMnemonic : IsMnemonic mnemonic)
    {operands : List String} (trimmed : ∀ operand ∈ operands, Text.trim operand = operand) :
    Instruction.make (String.ofList mnemonic) operands = instructionWith mnemonic operands := by
  have sameMnemonic : Text.trim (String.ofList mnemonic) = String.ofList mnemonic := by
    rw [Text.trim, String.toList_ofList, isMnemonic.trimChars_eq]
  have sameOperands : operands.map Text.trim = operands := by
    conv_rhs => rw [← List.map_id operands]
    exact List.map_congr_left trimmed
  unfold Instruction.make instructionWith
  rw [sameMnemonic, sameOperands]

theorem trim_of_mem_operandsOf {arguments : List Char} {operand : String}
    (member : operand ∈ operandsOf arguments) : Text.trim operand = operand := by
  unfold operandsOf unlessBlank at member
  split_ifs at member with blank
  · exact absurd member List.not_mem_nil
  · obtain ⟨part, _, rfl⟩ := List.mem_map.mp member
    exact Text.trim_trim _

/-- The reader that has just met a mnemonic gives the instruction that the grammar asks for. -/
theorem instructionBehind_eq {rail : RailState} {mnemonic arguments : List Char}
    (isMnemonic : IsMnemonic mnemonic) :
    OperandState.instructionBehind ⟨rail, mnemonic, [], [], 0⟩ arguments =
      instructionWith mnemonic (operandsOf arguments) :=
  make_eq_instructionWith isMnemonic fun _ member => trim_of_mem_operandsOf member

theorem OperandState.complete_eq (state : OperandState) :
    state.complete = state.operands.reverse ++ [operandOf state.operand.reverse] :=
  List.reverse_cons

/-- With no arguments to come, the instruction is the one that a closing parenthesis gives. -/
theorem OperandState.instructionBehind_nil (state : OperandState) :
    state.instructionBehind [] = state.instruction := by
  unfold instructionBehind instruction unlessBlank
  rw [complete_eq]
  simp [partsBehind]

/-! ### Tokens -/

section Tokens

variable {state : OperandState} {kind : TokenKind} {next : ReadState} {offset : Nat}

theorem GoesOn.mnemonic {rail : RailState} {mnemonic : List Char} (isMnemonic : IsMnemonic mnemonic)
    (goesOn : GoesOn nodes (.afterMnemonic rail mnemonic) rest) :
    GoesOn nodes (.onRail rail) (mnemonic ++ rest) := by
  obtain ⟨spaces, arguments, after, rfl, areSpaces, closes, railGoesOn⟩ := goesOn
  rw [instructionBehind_eq isMnemonic] at railGoesOn
  have whole := RailGoesOn.prependElement railGoesOn
    (.instruction isMnemonic areSpaces closes)
  have regrouped : mnemonic ++ (spaces ++ '(' :: (arguments ++ [')'])) ++ after =
      mnemonic ++ (spaces ++ '(' :: (arguments ++ ')' :: after)) := by simp
  rw [regrouped] at whole
  exact whole

/-- The scanner and the reader agree on the number of open parentheses. -/
theorem ReadState.depth_of_step {before : ReadState} {token : Token}
    (steps : before.step token = .ok next) : next.depth = depthAfter before.depth token.kind := by
  cases before with
  | onRail rail =>
      simp only [ReadState.step, RailState.step] at steps
      split at steps
      all_goals
        cases steps
        try simp only [*, ReadState.depth, depthAfter]
  | afterMnemonic rail mnemonic =>
      simp only [ReadState.step] at steps
      split_ifs at steps with opens
      cases steps
      simp only [opens, ReadState.depth, depthAfter]
  | inOperands state =>
      simp only [ReadState.step, OperandState.step] at steps
      split at steps
      all_goals
        cases steps
        try simp only [*, ReadState.depth, depthAfter, OperandState.take, Nat.add_sub_cancel]
  | finished own => cases steps

/-- A bracket, comma or semicolon between the elements of a rail. -/
theorem RailGoesOn.punctuation {rail : RailState} (punctuates : rungPunctuation? char = some kind)
    (steps : rail.step ⟨kind, [char], offset⟩ = .ok next) (goesOn : GoesOn nodes next rest) :
    RailGoesOn nodes rail.openBranches rail.nodes (char :: rest) := by
  obtain ⟨opened, current⟩ := rail
  unfold rungPunctuation? at punctuates
  split_ifs at punctuates with opens enters leaves separates closes
  all_goals cases punctuates
  -- A parenthesis, an opening bracket, a closing one, a comma and a semicolon.
  · cases opened with
    | nil => cases steps
    | cons branch outer => cases steps
  · obtain rfl := beq_iff_eq.mp enters
    cases steps
    obtain ⟨inner, first, others, after, rfl, areRails, outside⟩ := goesOn
    have whole := RailGoesOn.prependElement outside (.branch areRails)
    simpa using whole
  · obtain rfl := beq_iff_eq.mp leaves
    cases opened with
    | nil => cases steps
    | cons branch outer =>
        cases steps
        refine ⟨[], [], [], rest, rfl, .last isRail_nil, ?_⟩
        simpa [GoesOn] using goesOn
  · obtain rfl := beq_iff_eq.mp separates
    cases opened with
    | nil => cases steps
    | cons branch outer =>
        cases steps
        obtain ⟨inner, first, others, after, rfl, areRails, outside⟩ := goesOn
        refine ⟨',' :: inner, [], first :: others, after, rfl, .further isRail_nil areRails, ?_⟩
        simpa using outside
  · obtain rfl := beq_iff_eq.mp closes
    cases opened with
    | nil =>
        cases steps
        obtain ⟨areSpaces, same⟩ := goesOn
        refine ⟨[], .closed isRail_nil areSpaces, ?_⟩
        rw [same, List.append_nil]
    | cons branch outer => cases steps

theorem GoesOn.rungPunctuation {before : ReadState} (outside : before.depth = 0)
    (punctuates : rungPunctuation? char = some kind)
    (steps : before.step ⟨kind, [char], offset⟩ = .ok next) (goesOn : GoesOn nodes next rest) :
    GoesOn nodes before (char :: rest) := by
  cases before with
  | onRail rail => exact RailGoesOn.punctuation punctuates steps goesOn
  | afterMnemonic rail mnemonic =>
      simp only [ReadState.step] at steps
      split_ifs at steps with opens
      obtain rfl : kind = .leftParenthesis := opens
      cases steps
      obtain rfl : char = '(' := by
        unfold RungText.rungPunctuation? at punctuates
        split_ifs at punctuates with same
        exact beq_iff_eq.mp same
        all_goals cases punctuates
      obtain ⟨arguments, after, rfl, closes, railGoesOn⟩ := goesOn
      exact ⟨[], arguments, after, rfl, areSpaces_nil, closes, railGoesOn⟩
  | inOperands state => exact absurd outside (Nat.succ_ne_zero _)
  | finished own => cases steps

/--
A parenthesis or comma within the parentheses of an instruction closes the instruction, or
it leaves a reader that gives the same instruction for one character less.
-/
theorem OperandState.argument_cases (punctuates : operandPunctuation? char = some kind)
    (state : OperandState) :
    (char = ')' ∧ state.depth = 0 ∧ ∀ offset, state.step ⟨kind, [char], offset⟩ =
      .ok (.onRail (state.rail.push (.instruction state.instruction)))) ∨
    ∃ next : OperandState, next.rail = state.rail ∧
      (∀ offset, state.step ⟨kind, [char], offset⟩ = .ok (.inOperands next)) ∧
      ∀ more, parenthesesAfter? state.depth (char :: more) = parenthesesAfter? next.depth more ∧
        state.instructionBehind (char :: more) = next.instructionBehind more := by
  obtain ⟨rail, mnemonic, operands, operand, depth⟩ := state
  unfold operandPunctuation? at punctuates
  split_ifs at punctuates with opens closes separates
  all_goals cases punctuates
  · obtain rfl := beq_iff_eq.mp opens
    refine Or.inr ⟨⟨rail, mnemonic, operands, '(' :: operand, depth + 1⟩, rfl, fun _ => rfl, ?_⟩
    exact fun more => ⟨rfl, by simp [instructionBehind, partsBehind]⟩
  · obtain rfl := beq_iff_eq.mp closes
    cases depth with
    | zero => exact Or.inl ⟨rfl, rfl, fun _ => rfl⟩
    | succ outer =>
        refine Or.inr ⟨⟨rail, mnemonic, operands, ')' :: operand, outer⟩, rfl, fun _ => rfl, ?_⟩
        exact fun more => ⟨rfl, by simp [instructionBehind, partsBehind]⟩
  · obtain rfl := beq_iff_eq.mp separates
    cases depth with
    | zero =>
        refine Or.inr ⟨⟨rail, mnemonic, operandOf operand.reverse :: operands, [], 0⟩, rfl,
          fun _ => ?_, ?_⟩
        · simp [step, complete_eq]
        · exact fun more => ⟨rfl, by simp [instructionBehind, partsBehind]⟩
    | succ outer =>
        refine Or.inr ⟨⟨rail, mnemonic, operands, ',' :: operand, outer + 1⟩, rfl, fun _ => rfl, ?_⟩
        exact fun more => ⟨rfl, by simp [instructionBehind, partsBehind]⟩

theorem GoesOn.operandPunctuation {state : OperandState}
    (punctuates : operandPunctuation? char = some kind)
    (steps : state.step ⟨kind, [char], offset⟩ = .ok next) (goesOn : GoesOn nodes next rest) :
    GoesOn nodes (.inOperands state) (char :: rest) := by
  rcases state.argument_cases punctuates with
    ⟨rfl, outside, closing⟩ | ⟨inner, sameRail, stays, sameAnswer⟩
  · cases (closing offset).symm.trans steps
    refine ⟨[], rest, rfl, congrArg some outside, ?_⟩
    rw [OperandState.instructionBehind_nil]
    exact goesOn
  · cases (stays offset).symm.trans steps
    obtain ⟨arguments, after, rfl, closes, railGoesOn⟩ := goesOn
    refine ⟨char :: arguments, after, rfl, ?_, ?_⟩
    · rw [(sameAnswer arguments).1]
      exact closes
    · rw [(sameAnswer arguments).2, ← sameRail]
      exact railGoesOn

/-- Text without punctuation may be taken into the operand at once. -/
theorem OperandState.instructionBehind_text (state : OperandState) {text : List Char}
    (areText : ∀ own ∈ text, isOperandText own) (more : List Char) :
    state.instructionBehind (text ++ more) =
      (state.take ⟨.operandText, text, offset⟩).instructionBehind more := by
  unfold instructionBehind
  rw [partsBehind_text areText]
  simp [take]

theorem GoesOn.operandText {state : OperandState} {text : List Char}
    (areText : ∀ own ∈ text, isOperandText own)
    (goesOn : GoesOn nodes (.inOperands (state.take ⟨.operandText, text, offset⟩)) rest) :
    GoesOn nodes (.inOperands state) (text ++ rest) := by
  obtain ⟨arguments, after, rfl, closes, railGoesOn⟩ := goesOn
  rw [← OperandState.instructionBehind_text state areText] at railGoesOn
  refine ⟨text ++ arguments, after, (List.append_assoc _ _ _).symm, ?_, railGoesOn⟩
  rw [parenthesesAfter?_text areText]
  exact closes

end Tokens

/-! ### Whole texts -/

theorem goesOn_nil {state : ReadState} (finishes : state.finish = .ok nodes) :
    GoesOn nodes state [] := by
  unfold ReadState.finish at finishes
  split at finishes
  next current =>
    cases finishes
    exact ⟨[], .unclosed isRail_nil, (List.append_nil _).symm⟩
  next => cases finishes
  next => cases finishes
  next => cases finishes
  next own =>
    cases finishes
    exact ⟨areSpaces_nil, rfl⟩

/-- A reader that gets through some lexemes takes the first one as a token. -/
theorem ReadState.exists_of_run {state final : ReadState} {token : Token}
    {lexemes : List Lexeme} {tokens : List Token}
    (scans : .token token :: lexemes = tokens.map Lexeme.token)
    (runs : state.run tokens = .ok final) :
    ∃ next more, state.step token = .ok next ∧ lexemes = more.map Lexeme.token ∧
      next.run more = .ok final := by
  obtain ⟨own, more, rfl, same, others⟩ := List.map_eq_cons_iff.mp scans.symm
  cases same
  obtain ⟨next, steps, runsOn⟩ := ReadState.exists_of_run_cons runs
  exact ⟨next, more, steps, others.symm, runsOn⟩

theorem ReadState.exists_inOperands {state : ReadState} (within : state.depth ≠ 0) :
    ∃ own, state = .inOperands own := by
  cases state with
  | inOperands own => exact ⟨own, rfl⟩
  | onRail rail => exact absurd rfl within
  | afterMnemonic rail mnemonic => exact absurd rfl within
  | finished own => exact absurd rfl within

/-- A run of tokens that a reader accepts is what its state asks for. -/
theorem goesOn_of_run {state final : ReadState} {offset depth : Nat} {chars : List Char}
    {tokens : List Token} (scans : scan depth offset chars = tokens.map Lexeme.token)
    (inMode : state.depth = depth) (runs : state.run tokens = .ok final)
    (finishes : final.finish = .ok nodes) : GoesOn nodes state chars := by
  -- The scanner gives the cases; that it counts as many parentheses as the reader is
  -- what tells the states apart in which a token can be met.
  fun_induction scan depth offset chars generalizing state tokens with
  | case1 =>
      obtain rfl : tokens = [] := List.map_eq_nil_iff.mp scans.symm
      cases runs
      exact goesOn_nil finishes
  | case2 offset char rest space ih =>
      exact (ih scans inMode runs).prependSpace inMode space
  | case3 offset char rest notSpace starts image =>
      rename_i ih
      obtain ⟨next, more, steps, others, runsOn⟩ := ReadState.exists_of_run scans runs
      have isMnemonic : IsMnemonic image :=
        ⟨char, _, rfl, starts, fun own member => List.mem_takeWhile_imp member⟩
      have split : image ++ rest.dropWhile continuesMnemonic = char :: rest := by
        rw [List.cons_append, List.takeWhile_append_dropWhile]
      rw [← split]
      cases state with
      | onRail rail =>
          cases steps
          exact GoesOn.mnemonic isMnemonic (ih others rfl runsOn)
      | afterMnemonic rail mnemonic => cases steps
      | inOperands state => exact absurd inMode (Nat.succ_ne_zero _)
      | finished own => cases steps
  | case4 offset char rest notSpace notStarts kind punctuates ih =>
      obtain ⟨next, more, steps, others, runsOn⟩ := ReadState.exists_of_run scans runs
      have nextMode := ReadState.depth_of_step steps
      rw [inMode] at nextMode
      exact GoesOn.rungPunctuation inMode punctuates steps (ih others nextMode runsOn)
  | case5 offset char rest notSpace notStarts punctuates run =>
      obtain ⟨token, more, rfl, same, others⟩ := List.map_eq_cons_iff.mp scans.symm
      cases same
  | case6 depth offset char rest within kind punctuates ih =>
      obtain ⟨own, rfl⟩ := ReadState.exists_inOperands fun outside => within (inMode ▸ outside)
      obtain ⟨next, more, steps, others, runsOn⟩ := ReadState.exists_of_run scans runs
      have nextMode := ReadState.depth_of_step steps
      rw [inMode] at nextMode
      exact GoesOn.operandPunctuation punctuates steps (ih others nextMode runsOn)
  | case7 depth offset char rest within punctuates image =>
      rename_i ih
      obtain ⟨own, rfl⟩ := ReadState.exists_inOperands fun outside => within (inMode ▸ outside)
      obtain ⟨next, more, steps, others, runsOn⟩ := ReadState.exists_of_run scans runs
      have areText : ∀ own ∈ image, isOperandText own :=
        List.forall_mem_cons.mpr ⟨Option.isNone_iff_eq_none.mpr punctuates,
          fun own member => List.mem_takeWhile_imp member⟩
      have split : image ++ rest.dropWhile isOperandText = char :: rest := by
        rw [List.cons_append, List.takeWhile_append_dropWhile]
      rw [← split]
      cases steps
      exact GoesOn.operandText areText (ih others inMode runsOn)

/-- Lexemes among which there is no unexpected run are tokens. -/
theorem eq_map_token {lexemes : List Lexeme}
    (noFault : lexemes.filterMap Diagnostic.ofLexeme? = []) :
    lexemes = (lexemes.filterMap Lexeme.token?).map Lexeme.token := by
  induction lexemes with
  | nil => rfl
  | cons lexeme rest ih =>
      cases lexeme with
      | token found =>
          exact congrArg (List.cons (.token found)) (ih noFault)
      | unexpected first offset length => cases noFault

/-- A text that is read is the text of the rung that is read from it. -/
theorem isRung_of_parse {text : String} (parses : parse text = .ok nodes) :
    IsRung text.toList nodes := by
  simp only [parse, parseChars] at parses
  split at parses
  next reads noFault =>
    cases parses
    unfold readTokens at reads
    split at reads
    next final runs =>
      obtain ⟨more, isRung, same⟩ := goesOn_of_run (eq_map_token noFault) rfl runs reads
      rw [same]
      exact isRung
    next => cases reads
  next => cases parses
  next => cases parses

end RungText
end LadderDiagram
