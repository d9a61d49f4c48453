import LadderDiagram.Proofs.RungText.Canonical

/-!
# What is read from rung text

The tokens of a text are what their kinds say, and the reader only ever puts canonical
instructions on its rails and gives every branch at least one rail.  So the tree of any
text that is read has both properties, whatever the text is.
-/

namespace LadderDiagram
namespace RungText

/-- A tree of canonical instructions in which every branch has a rail. -/
inductive Node.IsCanonical : Node → Prop
  | instruction {content : Instruction} :
      content.IsCanonical → Node.IsCanonical (.instruction content)
  | branch {rails : List (List Node)} :
      rails ≠ [] → (∀ rail ∈ rails, ∀ node ∈ rail, Node.IsCanonical node) →
        Node.IsCanonical (.branch rails)

def AreCanonical (nodes : List Node) : Prop := ∀ node ∈ nodes, node.IsCanonical

/-- What the kind of a token says about the text that it covers, as far as operands depend on it. -/
def Token.IsWritten (token : Token) : Prop :=
  match token.kind with
  | .mnemonic => IsMnemonic token.image
  | .leftParenthesis => token.image = ['(']
  | .rightParenthesis => token.image = [')']
  | .operandSeparator => token.image = [',']
  | .operandText => ∀ char ∈ token.image, isOperandText char
  | _ => True

/-! ### Tokens -/

theorem isWritten_of_rungPunctuation {char : Char} {kind : TokenKind} (offset : Nat)
    (punctuates : rungPunctuation? char = some kind) : Token.IsWritten ⟨kind, [char], offset⟩ := by
  unfold rungPunctuation? at punctuates
  split_ifs at punctuates with opens
  · obtain rfl := beq_iff_eq.mp opens
    cases punctuates
    rfl
  all_goals
    cases punctuates
    trivial

theorem isWritten_of_operandPunctuation {char : Char} {kind : TokenKind} (offset : Nat)
    (punctuates : operandPunctuation? char = some kind) :
    Token.IsWritten ⟨kind, [char], offset⟩ := by
  unfold operandPunctuation? at punctuates
  split_ifs at punctuates with opens closes separates
  · obtain rfl := beq_iff_eq.mp opens
    cases punctuates
    rfl
  · obtain rfl := beq_iff_eq.mp closes
    cases punctuates
    rfl
  · obtain rfl := beq_iff_eq.mp separates
    cases punctuates
    rfl

/-- Every token of a text is what its kind says. -/
theorem isWritten_of_mem_scan {depth offset : Nat} {chars : List Char} {token : Token}
    (member : .token token ∈ scan depth offset chars) : token.IsWritten := by
  fun_induction scan depth offset chars with
  | case1 => cases member
  | case2 offset char rest space ih => exact ih member
  | case3 offset char rest space starts image ih =>
      rcases List.mem_cons.mp member with same | later
      · cases same
        exact ⟨char, _, rfl, starts, fun own within => List.mem_takeWhile_imp within⟩
      · exact ih later
  | case4 offset char rest space starts kind punctuates ih =>
      rcases List.mem_cons.mp member with same | later
      · cases same
        exact isWritten_of_rungPunctuation offset punctuates
      · exact ih later
  | case5 offset char rest space starts punctuates run ih =>
      rcases List.mem_cons.mp member with same | later
      · cases same
      · exact ih later
  | case6 depth offset char rest within kind punctuates ih =>
      rcases List.mem_cons.mp member with same | later
      · cases same
        exact isWritten_of_operandPunctuation offset punctuates
      · exact ih later
  | case7 depth offset char rest within punctuates image ih =>
      rcases List.mem_cons.mp member with same | later
      · cases same
        intro own belongs
        rcases List.mem_cons.mp belongs with rfl | belongs
        · exact Option.isNone_iff_eq_none.mpr punctuates
        · exact List.mem_takeWhile_imp belongs
      · exact ih later

/-! ### States of the reader -/

/-- All nodes of the rails that a reader has complete or open are canonical. -/
structure RailState.IsCanonical (rail : RailState) : Prop where
  nodes : AreCanonical rail.nodes
  before : ∀ branch ∈ rail.openBranches, AreCanonical branch.before
  rails : ∀ branch ∈ rail.openBranches, ∀ complete ∈ branch.rails, AreCanonical complete

/-- The operands so far can be written back, and the depth is that of the current one. -/
structure OperandState.IsCanonical (state : OperandState) : Prop where
  rail : state.rail.IsCanonical
  mnemonic : IsMnemonic state.mnemonic
  operands : ∀ operand ∈ state.operands, IsOperand operand
  depth : depthAfter? 0 state.operand.reverse = some state.depth

/-- All that a reader has read is canonical. -/
def ReadState.IsCanonical : ReadState → Prop
  | .onRail rail => rail.IsCanonical
  | .afterMnemonic rail mnemonic => rail.IsCanonical ∧ IsMnemonic mnemonic
  | .inOperands state => state.IsCanonical
  | .finished nodes => AreCanonical nodes

theorem AreCanonical.cons {node : Node} {nodes : List Node} (first : node.IsCanonical)
    (others : AreCanonical nodes) : AreCanonical (node :: nodes) := by
  intro own member
  rcases List.mem_cons.mp member with rfl | member
  · exact first
  · exact others own member

theorem AreCanonical.reverse {nodes : List Node} (canonical : AreCanonical nodes) :
    AreCanonical nodes.reverse :=
  fun node member => canonical node (List.mem_reverse.mp member)

theorem RailState.IsCanonical.push {rail : RailState} {node : Node} (canonical : rail.IsCanonical)
    (isCanonical : node.IsCanonical) : (rail.push node).IsCanonical :=
  ⟨canonical.nodes.cons isCanonical, canonical.before, canonical.rails⟩

section Steps

variable {token : Token} {next : ReadState}

theorem RailState.IsCanonical.step {rail : RailState} (canonical : rail.IsCanonical)
    (written : token.IsWritten) (steps : rail.step token = .ok next) : next.IsCanonical := by
  obtain ⟨nodes, before, rails⟩ := canonical
  unfold RailState.step at steps
  split at steps
  next kind =>
    cases steps
    unfold Token.IsWritten at written
    rw [kind] at written
    exact ⟨⟨nodes, before, rails⟩, written⟩
  next =>
    cases steps
    refine ⟨fun node member => absurd member List.not_mem_nil, ?_, ?_⟩
    · exact List.forall_mem_cons.mpr ⟨nodes, before⟩
    · exact List.forall_mem_cons.mpr ⟨fun own member => absurd member List.not_mem_nil, rails⟩
  next branch outer _ isOpen =>
    cases steps
    rw [isOpen] at before rails
    obtain ⟨beforeHere, beforeOuter⟩ := List.forall_mem_cons.mp before
    obtain ⟨railsHere, railsOuter⟩ := List.forall_mem_cons.mp rails
    refine ⟨fun node member => absurd member List.not_mem_nil, ?_, ?_⟩
    · exact List.forall_mem_cons.mpr ⟨beforeHere, beforeOuter⟩
    · exact List.forall_mem_cons.mpr
        ⟨List.forall_mem_cons.mpr ⟨nodes.reverse, railsHere⟩, railsOuter⟩
  next branch outer _ isOpen =>
    cases steps
    rw [isOpen] at before rails
    obtain ⟨beforeHere, beforeOuter⟩ := List.forall_mem_cons.mp before
    obtain ⟨railsHere, railsOuter⟩ := List.forall_mem_cons.mp rails
    refine ⟨beforeHere.cons (.branch (by simp) ?_), beforeOuter, railsOuter⟩
    intro own member
    exact List.forall_mem_cons.mpr ⟨nodes.reverse, railsHere⟩ own (List.mem_reverse.mp member)
  next =>
    cases steps
    exact nodes.reverse
  next => cases steps
  next => cases steps

/-- The operand goes on with a token that leaves a number of parentheses open. -/
theorem OperandState.IsCanonical.take {state : OperandState} (canonical : state.IsCanonical)
    {after : Nat} (goesOn : depthAfter? state.depth token.image = some after) :
    OperandState.IsCanonical { state.take token with depth := after } := by
  refine ⟨canonical.rail, canonical.mnemonic, canonical.operands, ?_⟩
  have joined : (state.take token).operand.reverse = state.operand.reverse ++ token.image := by
    simp [OperandState.take]
  rw [joined, depthAfter?_append, canonical.depth]
  exact goesOn

/-- Outside of all parentheses the current operand is complete as well. -/
theorem OperandState.IsCanonical.complete {state : OperandState} (canonical : state.IsCanonical)
    (outside : state.depth = 0) : ∀ operand ∈ state.complete, IsOperand operand := by
  have closes := canonical.depth
  rw [outside] at closes
  intro operand member
  rcases List.mem_cons.mp (List.mem_reverse.mp member) with rfl | earlier
  · exact isOperand_trim closes
  · exact canonical.operands operand earlier

/-- The operands of a closed instruction are never one empty operand. -/
theorem OperandState.IsCanonical.instruction {state : OperandState} (canonical : state.IsCanonical)
    (outside : state.depth = 0) : state.instruction.IsCanonical := by
  have complete := canonical.complete outside
  unfold OperandState.instruction
  by_cases single : state.complete = [""]
  · rw [single]
    apply Instruction.make_isCanonical canonical.mnemonic
    · exact fun operand member => absurd member List.not_mem_nil
    · exact (List.cons_ne_nil _ _).symm
  · simp only [beq_iff_eq, single, if_false]
    exact Instruction.make_isCanonical canonical.mnemonic complete single

theorem OperandState.IsCanonical.step {state : OperandState} (canonical : state.IsCanonical)
    (written : token.IsWritten) (steps : state.step token = .ok next) : next.IsCanonical := by
  unfold Token.IsWritten at written
  unfold OperandState.step at steps
  split at steps
  next kind =>
    cases steps
    rw [kind] at written
    exact canonical.take (depthAfter?_of_isOperandText written)
  next kind =>
    cases steps
    rw [kind] at written
    apply canonical.take
    rw [written]
    rfl
  next kind outside =>
    cases steps
    refine ⟨canonical.rail, canonical.mnemonic, ?_, congrArg some outside.symm⟩
    exact fun operand member => canonical.complete outside operand (List.mem_reverse.mp member)
  next depth kind inside =>
    cases steps
    rw [kind] at written
    have goesOn : depthAfter? state.depth token.image = some state.depth := by
      rw [written, inside]
      rfl
    exact canonical.take goesOn
  next kind outside =>
    cases steps
    exact canonical.rail.push (.instruction (canonical.instruction outside))
  next depth kind inside =>
    cases steps
    rw [kind] at written
    apply canonical.take
    rw [written, inside]
    rfl
  next => cases steps

theorem ReadState.IsCanonical.step {state : ReadState} (canonical : state.IsCanonical)
    (written : token.IsWritten) (steps : state.step token = .ok next) : next.IsCanonical := by
  cases state with
  | onRail rail => exact RailState.IsCanonical.step canonical written steps
  | afterMnemonic rail mnemonic =>
      simp only [ReadState.step] at steps
      split_ifs at steps
      cases steps
      refine ⟨canonical.1, canonical.2, ?_, rfl⟩
      exact fun operand member => absurd member List.not_mem_nil
  | inOperands state => exact OperandState.IsCanonical.step canonical written steps
  | finished nodes => cases steps

end Steps

/-- A run that gets to its end begins with a step. -/
theorem ReadState.exists_of_run_cons {state final : ReadState} {token : Token}
    {rest : List Token} (runs : state.run (token :: rest) = .ok final) :
    ∃ next, state.step token = .ok next ∧ next.run rest = .ok final := by
  unfold ReadState.run at runs
  split at runs
  next next steps => exact ⟨next, steps, runs⟩
  next => cases runs

/-- What has been read is canonical after any number of tokens. -/
theorem ReadState.IsCanonical.run {state final : ReadState} {tokens : List Token}
    (canonical : state.IsCanonical) (written : ∀ token ∈ tokens, token.IsWritten)
    (runs : state.run tokens = .ok final) : final.IsCanonical := by
  induction tokens generalizing state with
  | nil =>
      cases runs
      exact canonical
  | cons token rest ih =>
      obtain ⟨next, steps, runsOn⟩ := ReadState.exists_of_run_cons runs
      have nextCanonical := canonical.step (written token List.mem_cons_self) steps
      have restWritten : ∀ own ∈ rest, own.IsWritten :=
        fun own member => written own (List.mem_cons_of_mem token member)
      exact ih nextCanonical restWritten runsOn

theorem ReadState.IsCanonical.finish {state : ReadState} {nodes : List Node}
    (canonical : state.IsCanonical) (finishes : state.finish = .ok nodes) : AreCanonical nodes := by
  unfold ReadState.finish at finishes
  split at finishes
  all_goals cases finishes
  · exact canonical.nodes.reverse
  · exact canonical

/-- The tree of any text that is read is canonical. -/
theorem areCanonical_of_parse {text : String} {nodes : List Node}
    (parses : parse text = .ok nodes) : AreCanonical nodes := by
  have written : ∀ token ∈ (lexemes text.toList).filterMap Lexeme.token?, token.IsWritten := by
    intro token member
    obtain ⟨lexeme, scanned, isToken⟩ := List.mem_filterMap.mp member
    cases lexeme with
    | token found =>
        cases isToken
        exact isWritten_of_mem_scan scanned
    | unexpected first offset length => cases isToken
  have started : ReadState.start.IsCanonical :=
    ⟨fun _ member => absurd member List.not_mem_nil, fun _ member => absurd member List.not_mem_nil,
      fun _ member => absurd member List.not_mem_nil⟩
  simp only [parse, parseChars] at parses
  split at parses
  next reads _ =>
    cases parses
    unfold readTokens at reads
    split at reads
    next state runs => exact (started.run written runs).finish reads
    next => cases reads
  next => cases parses
  next => cases parses

end RungText
end LadderDiagram
