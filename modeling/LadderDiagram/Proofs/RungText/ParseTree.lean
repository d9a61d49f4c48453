import LadderDiagram.Proofs.RungText.Acceptance
import Mathlib.Data.List.Nodup

/-!
# Parse trees of what is read

The rules of the grammar of rungs, token by token, with the tree that each rule gives.  The
reader, which makes nodes at once, reads what has a tree and nothing else, and the nodes are
those of the tree: since offsets ascend along a text, sorting the tokens of a rule by their
offsets gives the text back, and nothing is lost by having kept them kind by kind.
-/

namespace LadderDiagram
namespace RungText

/-! ### Rules -/

mutual

/-- A parenthesis that opens a group, what the group encloses, and a parenthesis that closes it. -/
inductive IsGroup : List Token → GroupTree → Prop
  | enclosing {opening closing : Token} {inner texts separators : List Token}
      {groups : List GroupTree} :
      opening.kind = .leftParenthesis → AreEnclosed inner texts separators groups →
        closing.kind = .rightParenthesis →
          IsGroup (opening :: (inner ++ [closing]))
            (.enclosing [opening] [closing] texts separators groups)

/-- What a group encloses, sorted by kind: operand texts, separators and groups. -/
inductive AreEnclosed : List Token → List Token → List Token → List GroupTree → Prop
  | nil : AreEnclosed [] [] [] []
  | text {token : Token} {rest texts separators : List Token} {groups : List GroupTree} :
      token.kind = .operandText → AreEnclosed rest texts separators groups →
        AreEnclosed (token :: rest) (token :: texts) separators groups
  | separator {token : Token} {rest texts separators : List Token} {groups : List GroupTree} :
      token.kind = .operandSeparator → AreEnclosed rest texts separators groups →
        AreEnclosed (token :: rest) texts (token :: separators) groups
  | group {tokens rest texts separators : List Token} {group : GroupTree}
      {groups : List GroupTree} :
      IsGroup tokens group → AreEnclosed rest texts separators groups →
        AreEnclosed (tokens ++ rest) texts separators (group :: groups)

end

/-- An operand: texts and groups. -/
inductive IsOperandTree : List Token → OperandTree → Prop
  | nil : IsOperandTree [] ⟨[], []⟩
  | text {token : Token} {rest texts : List Token} {groups : List GroupTree} :
      token.kind = .operandText → IsOperandTree rest ⟨texts, groups⟩ →
        IsOperandTree (token :: rest) ⟨token :: texts, groups⟩
  | group {tokens rest texts : List Token} {group : GroupTree} {groups : List GroupTree} :
      IsGroup tokens group → IsOperandTree rest ⟨texts, groups⟩ →
        IsOperandTree (tokens ++ rest) ⟨texts, group :: groups⟩

/-- Operands with separators between them. -/
inductive AreOperands : List Token → List OperandTree → Prop
  | last {tokens : List Token} {operand : OperandTree} :
      IsOperandTree tokens operand → AreOperands tokens [operand]
  | further {tokens rest : List Token} {separator : Token} {operand : OperandTree}
      {operands : List OperandTree} :
      IsOperandTree tokens operand → separator.kind = .operandSeparator →
        AreOperands rest operands →
          AreOperands (tokens ++ separator :: rest) (operand :: operands)

mutual

/-- An instruction with its operands, or a branch with its rails. -/
inductive IsElementTree : List Token → ElementTree → Prop
  | instruction {mnemonic opening closing : Token} {inner : List Token}
      {operands : List OperandTree} :
      mnemonic.kind = .mnemonic → opening.kind = .leftParenthesis → AreOperands inner operands →
        closing.kind = .rightParenthesis →
          IsElementTree (mnemonic :: opening :: (inner ++ [closing]))
            (.instruction mnemonic operands)
  | branch {opening closing : Token} {inner : List Token} {rails : List (List ElementTree)} :
      opening.kind = .leftBracket → AreRailTrees inner rails → closing.kind = .rightBracket →
        IsElementTree (opening :: (inner ++ [closing])) (.branch rails)

inductive IsRailTree : List Token → List ElementTree → Prop
  | nil : IsRailTree [] []
  | cons {tokens rest : List Token} {element : ElementTree} {elements : List ElementTree} :
      IsElementTree tokens element → IsRailTree rest elements →
        IsRailTree (tokens ++ rest) (element :: elements)

/-- Rails with commas between them. -/
inductive AreRailTrees : List Token → List (List ElementTree) → Prop
  | last {tokens : List Token} {rail : List ElementTree} :
      IsRailTree tokens rail → AreRailTrees tokens [rail]
  | further {tokens rest : List Token} {comma : Token} {rail : List ElementTree}
      {rails : List (List ElementTree)} :
      IsRailTree tokens rail → comma.kind = .comma → AreRailTrees rest rails →
        AreRailTrees (tokens ++ comma :: rest) (rail :: rails)

end

/-- A rail, with a semicolon behind it or without one. -/
inductive IsRungTree : List Token → List ElementTree → Prop
  | unclosed {tokens : List Token} {elements : List ElementTree} :
      IsRailTree tokens elements → IsRungTree tokens elements
  | closed {tokens : List Token} {semicolon : Token} {elements : List ElementTree} :
      IsRailTree tokens elements → semicolon.kind = .semicolon →
        IsRungTree (tokens ++ [semicolon]) elements

/-! ### Offsets -/

/-- Tokens in the order of a text: each one begins behind the one before it. -/
def Ascend (tokens : List Token) : Prop :=
  tokens.Pairwise fun first second => first.offset < second.offset

theorem Ascend.of_append_left {first second : List Token} (ascend : Ascend (first ++ second)) :
    Ascend first :=
  ascend.sublist (List.sublist_append_left first second)

theorem Ascend.of_append_right {first second : List Token} (ascend : Ascend (first ++ second)) :
    Ascend second :=
  ascend.sublist (List.sublist_append_right first second)

theorem Ascend.tail {first : Token} {rest : List Token} (ascend : Ascend (first :: rest)) :
    Ascend rest :=
  ascend.sublist (List.sublist_cons_self first rest)

theorem byOffset_iff {first second : Token} :
    byOffset first second = true ↔ first.offset ≤ second.offset :=
  decide_eq_true_iff

/-- Tokens that are sorted by their offsets are in the order of the text. -/
theorem mergeSort_eq_of_perm {collected tokens : List Token} (ascend : Ascend tokens)
    (perm : collected.Perm tokens) : collected.mergeSort byOffset = tokens := by
  have permSorted := (List.mergeSort_perm collected byOffset).trans perm
  have sorted : (collected.mergeSort byOffset).Pairwise fun first second =>
      byOffset first second = true := by
    refine List.pairwise_mergeSort (fun first second third le further => ?_)
      (fun first second => ?_) collected
    · exact byOffset_iff.mpr ((byOffset_iff.mp le).trans (byOffset_iff.mp further))
    · rw [Bool.or_eq_true, byOffset_iff, byOffset_iff]
      exact Nat.le_total first.offset second.offset
  have ordered : tokens.Pairwise fun first second => byOffset first second = true :=
    ascend.imp fun less => byOffset_iff.mpr less.le
  have distinct : (tokens.map Token.offset).Nodup :=
    List.pairwise_map.mpr (ascend.imp fun less => less.ne)
  refine permSorted.eq_of_pairwise (fun first second isFirst isSecond le ge => ?_) sorted ordered
  exact List.inj_on_of_nodup_map distinct (permSorted.subset isFirst) isSecond
    (Nat.le_antisymm (byOffset_iff.mp le) (byOffset_iff.mp ge))

/-! ### Trees and their tokens -/

mutual

theorem IsGroup.tokens_eq {tokens : List Token} {group : GroupTree} (isGroup : IsGroup tokens group)
    (ascend : Ascend tokens) : group.tokens = tokens :=
  match isGroup with
  | .enclosing _ areEnclosed _ => by
      have perm := areEnclosed.perm ascend.tail.of_append_left
      rw [GroupTree.tokens]
      refine mergeSort_eq_of_perm ascend (List.Perm.cons _ ?_)
      exact (perm.cons _).trans (List.perm_append_singleton _ _).symm

/-- What is collected kind by kind is what the group encloses, but for the order. -/
theorem AreEnclosed.perm {tokens texts separators : List Token} {groups : List GroupTree}
    (areEnclosed : AreEnclosed tokens texts separators groups) (ascend : Ascend tokens) :
    (texts ++ separators ++ groupTokens groups).Perm tokens :=
  match areEnclosed with
  | .nil => .nil
  | .text _ rest => (rest.perm ascend.tail).cons _
  | .separator _ rest => by
      have perm := rest.perm ascend.tail
      rw [List.append_assoc] at perm ⊢
      exact List.perm_middle.trans (perm.cons _)
  | .group isGroup rest => by
      have perm := rest.perm ascend.of_append_right
      rw [groupTokens, isGroup.tokens_eq ascend.of_append_left]
      exact (List.perm_append_comm_assoc _ _ _).trans (perm.append_left _)

end

theorem IsOperandTree.perm {tokens : List Token} {operand : OperandTree}
    (isOperand : IsOperandTree tokens operand) (ascend : Ascend tokens) :
    (operand.texts ++ groupTokens operand.groups).Perm tokens := by
  induction isOperand with
  | nil => exact .nil
  | text _ _ ih => exact (ih ascend.tail).cons _
  | group isGroup _ ih =>
      rw [groupTokens, isGroup.tokens_eq ascend.of_append_left]
      exact (List.perm_append_comm_assoc _ _ _).trans ((ih ascend.of_append_right).append_left _)

/-- The text of an operand is that of its tokens. -/
theorem IsOperandTree.text_eq {tokens : List Token} {operand : OperandTree}
    (isOperand : IsOperandTree tokens operand) (ascend : Ascend tokens) :
    operand.text = operandOf (tokens.flatMap Token.image) := by
  rw [OperandTree.text, mergeSort_eq_of_perm ascend (isOperand.perm ascend)]
  rfl

/-! ### Reading what has a tree -/

/-- The state behind some tokens of the current operand. -/
def OperandState.takeAll (state : OperandState) (tokens : List Token) : OperandState :=
  { state with operand := (tokens.flatMap Token.image).reverse ++ state.operand }

theorem OperandState.takeAll_cons (state : OperandState) (token : Token) (tokens : List Token) :
    state.takeAll (token :: tokens) = (state.take token).takeAll tokens := by
  unfold takeAll take
  rw [List.flatMap_cons, List.reverse_append, List.append_assoc]

theorem OperandState.takeAll_append (state : OperandState) (first second : List Token) :
    state.takeAll (first ++ second) = (state.takeAll first).takeAll second := by
  unfold takeAll
  rw [List.flatMap_append, List.reverse_append, List.append_assoc]

theorem OperandState.takeAll_singleton (state : OperandState) (token : Token) :
    state.takeAll [token] = state.take token := by
  unfold takeAll take
  rw [List.flatMap_singleton]

theorem ReadState.run_cons {before next : ReadState} {token : Token} (rest : List Token)
    (steps : before.step token = .ok next) : before.run (token :: rest) = next.run rest := by
  rw [ReadState.run, steps]

section Steps

variable {state : OperandState} {token : Token}

theorem step_operandText (isText : token.kind = .operandText) :
    (ReadState.inOperands state).step token = .ok (.inOperands (state.take token)) := by
  simp only [ReadState.step, OperandState.step, isText]

theorem step_operandSeparator (separates : token.kind = .operandSeparator)
    (within : state.depth ≠ 0) :
    (ReadState.inOperands state).step token = .ok (.inOperands (state.take token)) := by
  obtain ⟨depth, isDepth⟩ := Nat.exists_eq_succ_of_ne_zero within
  simp only [ReadState.step, OperandState.step, separates, isDepth]

/-- Outside of all groups a separator ends the operand. -/
theorem step_ending (separates : token.kind = .operandSeparator) (outside : state.depth = 0) :
    (ReadState.inOperands state).step token =
      .ok (.inOperands { state with operands := state.complete.reverse, operand := [] }) := by
  simp only [ReadState.step, OperandState.step, separates, outside]

theorem step_opening (opens : token.kind = .leftParenthesis) :
    (ReadState.inOperands state).step token =
      .ok (.inOperands { state.take token with depth := state.depth + 1 }) := by
  simp only [ReadState.step, OperandState.step, opens]

theorem step_closing {depth : Nat} (closes : token.kind = .rightParenthesis)
    (isDepth : state.depth = depth + 1) :
    (ReadState.inOperands state).step token =
      .ok (.inOperands { state.take token with depth := depth }) := by
  simp only [ReadState.step, OperandState.step, closes, isDepth]

end Steps

mutual

theorem run_group {tokens : List Token} {group : GroupTree} (isGroup : IsGroup tokens group)
    (state : OperandState) :
    (ReadState.inOperands state).run tokens = .ok (.inOperands (state.takeAll tokens)) :=
  match isGroup with
  | .enclosing opens areEnclosed closes => by
      rw [ReadState.run_cons _ (step_opening opens),
        ReadState.run_append (run_enclosed areEnclosed _ (Nat.succ_ne_zero state.depth)),
        ReadState.run_cons _ (step_closing closes rfl), OperandState.takeAll_cons,
        OperandState.takeAll_append, OperandState.takeAll_singleton]
      rfl

/-- Within a group the reader takes every token of it. -/
theorem run_enclosed {tokens texts separators : List Token} {groups : List GroupTree}
    (areEnclosed : AreEnclosed tokens texts separators groups) (state : OperandState)
    (within : state.depth ≠ 0) :
    (ReadState.inOperands state).run tokens = .ok (.inOperands (state.takeAll tokens)) :=
  match areEnclosed with
  | .nil => rfl
  | .text isText rest => by
      rw [ReadState.run_cons _ (step_operandText isText), OperandState.takeAll_cons]
      exact run_enclosed rest _ within
  | .separator separates rest => by
      rw [ReadState.run_cons _ (step_operandSeparator separates within),
        OperandState.takeAll_cons]
      exact run_enclosed rest _ within
  | .group isGroup rest => by
      rw [ReadState.run_append (run_group isGroup state), OperandState.takeAll_append]
      exact run_enclosed rest _ within

end

theorem run_operand {tokens : List Token} {operand : OperandTree}
    (isOperand : IsOperandTree tokens operand) (state : OperandState) :
    (ReadState.inOperands state).run tokens = .ok (.inOperands (state.takeAll tokens)) := by
  induction isOperand generalizing state with
  | nil => rfl
  | text isText _ ih =>
      rw [ReadState.run_cons _ (step_operandText isText), OperandState.takeAll_cons]
      exact ih _
  | group isGroup _ ih =>
      rw [ReadState.run_append (run_group isGroup state), OperandState.takeAll_append]
      exact ih _

theorem complete_takeAll {tokens : List Token} {operand : OperandTree}
    (isOperand : IsOperandTree tokens operand) (ascend : Ascend tokens) (rail : RailState)
    (mnemonic : List Char) (before : List String) :
    (OperandState.takeAll ⟨rail, mnemonic, before, [], 0⟩ tokens).complete =
      before.reverse ++ [operand.text] := by
  rw [OperandState.complete_eq, isOperand.text_eq ascend]
  simp [OperandState.takeAll]

/-- The operands that a reader has complete at the parenthesis that closes its instruction. -/
theorem exists_run_operands {tokens : List Token} {operands : List OperandTree}
    (areOperands : AreOperands tokens operands) (ascend : Ascend tokens) (rail : RailState)
    (mnemonic : List Char) (before : List String) :
    ∃ state : OperandState, state.rail = rail ∧ state.mnemonic = mnemonic ∧ state.depth = 0 ∧
      (ReadState.inOperands ⟨rail, mnemonic, before, [], 0⟩).run tokens =
        .ok (.inOperands state) ∧
      state.complete = before.reverse ++ operands.map OperandTree.text := by
  induction areOperands generalizing before with
  | last isOperand =>
      exact ⟨_, rfl, rfl, rfl, run_operand isOperand _,
        complete_takeAll isOperand ascend rail mnemonic before⟩
  | further isOperand separates _ ih =>
      have complete := complete_takeAll isOperand ascend.of_append_left rail mnemonic before
      obtain ⟨state, sameRail, sameMnemonic, outside, runs, completes⟩ :=
        ih ascend.of_append_right.tail (_ :: before)
      refine ⟨state, sameRail, sameMnemonic, outside, ?_, ?_⟩
      · rw [ReadState.run_append (run_operand isOperand _),
          ReadState.run_cons _ (step_ending separates rfl), complete, List.reverse_append,
          List.reverse_reverse]
        exact runs
      · rw [completes, List.reverse_cons, List.append_assoc]
        rfl

theorem run_instruction {inner : List Token} {mnemonic opening closing : Token}
    {operands : List OperandTree} (isMnemonic : mnemonic.kind = .mnemonic)
    (opens : opening.kind = .leftParenthesis) (areOperands : AreOperands inner operands)
    (closes : closing.kind = .rightParenthesis) (ascend : Ascend inner) (rail : RailState) :
    (ReadState.onRail rail).run (mnemonic :: opening :: (inner ++ [closing])) =
      .ok (.onRail (rail.push (.instruction (instructionOf mnemonic operands)))) := by
  obtain ⟨state, sameRail, sameMnemonic, outside, runs, completes⟩ :=
    exists_run_operands areOperands ascend rail mnemonic.image []
  have starts : (ReadState.onRail rail).step mnemonic =
      .ok (.afterMnemonic rail mnemonic.image) := by
    simp only [ReadState.step, RailState.step, isMnemonic]
  have enters : (ReadState.afterMnemonic rail mnemonic.image).step opening =
      .ok (.inOperands ⟨rail, mnemonic.image, [], [], 0⟩) := if_pos opens
  have leaves : (ReadState.inOperands state).step closing =
      .ok (.onRail (rail.push (.instruction (instructionOf mnemonic operands)))) := by
    simp only [ReadState.step, OperandState.step, closes, outside, sameRail]
    rw [OperandState.instruction, completes, sameMnemonic]
    rfl
  rw [ReadState.run_cons _ starts, ReadState.run_cons _ enters, ReadState.run_append runs,
    ReadState.run_cons _ leaves]
  rfl

section RailSteps

variable {rail : RailState} {token : Token} {branch : OpenBranch} {outer : List OpenBranch}
  {nodes : List Node}

theorem step_leftBracket (opens : token.kind = .leftBracket) :
    (ReadState.onRail rail).step token = .ok (.onRail rail.enter) := by
  simp only [ReadState.step, RailState.step, opens]

theorem step_comma (separates : token.kind = .comma) :
    (ReadState.onRail ⟨branch :: outer, nodes⟩).step token =
      .ok (.onRail ⟨⟨branch.before, nodes.reverse :: branch.rails⟩ :: outer, []⟩) := by
  simp only [ReadState.step, RailState.step, separates]

theorem step_rightBracket (closes : token.kind = .rightBracket) :
    (ReadState.onRail ⟨branch :: outer, nodes⟩).step token =
      .ok (.onRail ⟨outer, .branch (nodes.reverse :: branch.rails).reverse :: branch.before⟩) := by
  simp only [ReadState.step, RailState.step, closes]

theorem step_semicolon (ends : token.kind = .semicolon) :
    (ReadState.onRail ⟨[], nodes⟩).step token = .ok (.finished nodes.reverse) := by
  simp only [ReadState.step, RailState.step, ends]

end RailSteps

mutual

theorem run_element {tokens : List Token} {element : ElementTree}
    (isElement : IsElementTree tokens element) (ascend : Ascend tokens) (rail : RailState) :
    (ReadState.onRail rail).run tokens = .ok (.onRail (rail.push element.node)) :=
  match isElement with
  | .instruction isMnemonic opens areOperands closes => by
      rw [ElementTree.node]
      exact run_instruction isMnemonic opens areOperands closes ascend.tail.tail.of_append_left rail
  | .branch opens areRails closes => by
      rw [ReadState.run_cons _ (step_leftBracket opens), ElementTree.node]
      exact run_rails areRails closes ascend.tail.of_append_left ⟨rail.nodes, []⟩ _

theorem run_rail {tokens : List Token} {elements : List ElementTree}
    (isRail : IsRailTree tokens elements) (ascend : Ascend tokens) (rail : RailState) :
    (ReadState.onRail rail).run tokens =
      .ok (.onRail { rail with nodes := (elementNodes elements).reverse ++ rail.nodes }) :=
  match isRail with
  | .nil => rfl
  | .cons isElement rest => by
      rw [ReadState.run_append (run_element isElement ascend.of_append_left rail), elementNodes,
        List.reverse_cons, List.append_assoc]
      exact run_rail rest ascend.of_append_right _

/-- The rails of a branch, up to the bracket that closes it. -/
theorem run_rails {tokens : List Token} {rails : List (List ElementTree)} {closing : Token}
    (areRails : AreRailTrees tokens rails) (closes : closing.kind = .rightBracket)
    (ascend : Ascend tokens) (branch : OpenBranch) (outer : List OpenBranch) :
    (ReadState.onRail ⟨branch :: outer, []⟩).run (tokens ++ [closing]) =
      .ok (.onRail ⟨outer, .branch (branch.rails.reverse ++ railNodes rails) :: branch.before⟩) :=
  match areRails with
  | .last isRail => by
      rw [ReadState.run_append (run_rail isRail ascend _),
        ReadState.run_cons _ (step_rightBracket closes), railNodes, railNodes, List.append_nil,
        List.reverse_reverse, List.reverse_cons]
      rfl
  | .further isRail separates rest => by
      rw [List.append_assoc, ReadState.run_append (run_rail isRail ascend.of_append_left _),
        List.cons_append, ReadState.run_cons _ (step_comma separates),
        run_rails rest closes ascend.of_append_right.tail, railNodes, List.append_nil,
        List.reverse_reverse, List.reverse_cons, List.append_assoc]
      rfl

end

/-- What has a tree is read, and the nodes are those of the tree. -/
theorem readTokens_of_isRungTree {tokens : List Token} {elements : List ElementTree}
    (isRung : IsRungTree tokens elements) (ascend : Ascend tokens) :
    readTokens tokens = .ok (elementNodes elements) := by
  have nodes_eq : ((elementNodes elements).reverse ++ []).reverse = elementNodes elements := by
    rw [List.append_nil, List.reverse_reverse]
  unfold readTokens ReadState.start
  cases isRung with
  | unclosed isRail =>
      rw [run_rail isRail ascend]
      exact congrArg Except.ok nodes_eq
  | closed isRail ends =>
      have runs : (ReadState.onRail .empty).run _ =
          .ok (.onRail ⟨[], (elementNodes elements).reverse ++ []⟩) :=
        run_rail isRail ascend.of_append_left .empty
      rw [ReadState.run_append runs, ReadState.run_cons _ (step_semicolon ends)]
      exact congrArg Except.ok nodes_eq

/-! ### What is read has a tree -/

/-- What is left of a text on a rail inside some open branches, if it can be read to its end. -/
def RailFollows : Nat → List Token → Prop
  | 0, tokens => ∃ elements, IsRungTree tokens elements
  | outer + 1, tokens => ∃ inner rails closing after, tokens = inner ++ closing :: after ∧
      AreRailTrees inner rails ∧ closing.kind = .rightBracket ∧ RailFollows outer after

/-- What is left inside an instruction's parentheses and some groups. -/
def OperandsFollow (branches : Nat) : Nat → List Token → Prop
  | 0, tokens => ∃ inner operands closing after, tokens = inner ++ closing :: after ∧
      AreOperands inner operands ∧ closing.kind = .rightParenthesis ∧ RailFollows branches after
  | outer + 1, tokens => ∃ inner texts separators groups closing after,
      tokens = inner ++ closing :: after ∧ AreEnclosed inner texts separators groups ∧
        closing.kind = .rightParenthesis ∧ OperandsFollow branches outer after

/-- What is left of a text in a state of its reader, if it can be read to its end. -/
def Follows : ReadState → List Token → Prop
  | .onRail rail, tokens => RailFollows rail.openBranches.length tokens
  | .afterMnemonic rail _, tokens => ∃ opening rest, tokens = opening :: rest ∧
      opening.kind = .leftParenthesis ∧ OperandsFollow rail.openBranches.length 0 rest
  | .inOperands state, tokens => OperandsFollow state.rail.openBranches.length state.depth tokens
  | .finished _, tokens => tokens = []

section Following

variable {branches depth : Nat} {piece rest : List Token}

theorem RailFollows.prependElement {element : ElementTree} (isElement : IsElementTree piece element)
    (follows : RailFollows branches rest) : RailFollows branches (piece ++ rest) := by
  cases branches with
  | zero =>
      obtain ⟨elements, isRung⟩ := follows
      cases isRung with
      | unclosed isRail => exact ⟨_, .unclosed (.cons isElement isRail)⟩
      | closed isRail ends =>
          rw [← List.append_assoc]
          exact ⟨_, .closed (.cons isElement isRail) ends⟩
  | succ outer =>
      obtain ⟨inner, rails, closing, after, rfl, areRails, closes, outside⟩ := follows
      rw [← List.append_assoc]
      cases areRails with
      | last isRail =>
          exact ⟨_, _, closing, after, rfl, .last (.cons isElement isRail), closes, outside⟩
      | further isRail separates others =>
          rw [← List.append_assoc]
          exact ⟨_, _, closing, after, rfl, .further (.cons isElement isRail) separates others,
            closes, outside⟩

/-- A piece that may stand in an operand and in a group may stand in front of what is left. -/
theorem OperandsFollow.prepend (piece : List Token)
    (inOperand : ∀ {tokens operand}, IsOperandTree tokens operand →
      ∃ more, IsOperandTree (piece ++ tokens) more)
    (inGroup : ∀ {tokens texts separators groups}, AreEnclosed tokens texts separators groups →
      ∃ more others inner, AreEnclosed (piece ++ tokens) more others inner)
    (follows : OperandsFollow branches depth rest) :
    OperandsFollow branches depth (piece ++ rest) := by
  cases depth with
  | zero =>
      obtain ⟨inner, operands, closing, after, rfl, areOperands, closes, outside⟩ := follows
      rw [← List.append_assoc]
      cases areOperands with
      | last isOperand =>
          obtain ⟨operand, isMore⟩ := inOperand isOperand
          exact ⟨_, _, closing, after, rfl, .last isMore, closes, outside⟩
      | further isOperand separates others =>
          obtain ⟨operand, isMore⟩ := inOperand isOperand
          rw [← List.append_assoc]
          exact ⟨_, _, closing, after, rfl, .further isMore separates others, closes, outside⟩
  | succ outer =>
      obtain ⟨inner, _, _, _, closing, after, rfl, areEnclosed, closes, outside⟩ := follows
      obtain ⟨_, _, _, areMore⟩ := inGroup areEnclosed
      rw [← List.append_assoc]
      exact ⟨_, _, _, _, closing, after, rfl, areMore, closes, outside⟩

theorem OperandsFollow.prependText {token : Token} (isText : token.kind = .operandText)
    (follows : OperandsFollow branches depth rest) :
    OperandsFollow branches depth (token :: rest) :=
  follows.prepend [token] (fun isOperand => ⟨_, .text isText isOperand⟩)
    fun areEnclosed => ⟨_, _, _, .text isText areEnclosed⟩

theorem OperandsFollow.prependSeparator {token : Token}
    (separates : token.kind = .operandSeparator) (within : depth ≠ 0)
    (follows : OperandsFollow branches depth rest) :
    OperandsFollow branches depth (token :: rest) := by
  obtain ⟨outer, rfl⟩ := Nat.exists_eq_succ_of_ne_zero within
  obtain ⟨inner, _, _, _, closing, after, rfl, areEnclosed, closes, outside⟩ := follows
  exact ⟨token :: inner, _, _, _, closing, after, rfl, .separator separates areEnclosed, closes,
    outside⟩

theorem OperandsFollow.prependGroup {group : GroupTree} (isGroup : IsGroup piece group)
    (follows : OperandsFollow branches depth rest) :
    OperandsFollow branches depth (piece ++ rest) :=
  follows.prepend piece (fun isOperand => ⟨_, .group isGroup isOperand⟩)
    fun areEnclosed => ⟨_, _, _, .group isGroup areEnclosed⟩

end Following

section Steps

variable {token : Token} {rest : List Token} {next : ReadState}

theorem RailState.follows_of_step {rail : RailState} (steps : rail.step token = .ok next)
    (follows : Follows next rest) : RailFollows rail.openBranches.length (token :: rest) := by
  obtain ⟨opened, nodes⟩ := rail
  unfold RailState.step at steps
  split at steps
  next isMnemonic =>
    cases steps
    obtain ⟨opening, _, rfl, opens, inner, operands, closing, after, rfl, areOperands, closes,
      outside⟩ := follows
    have whole := outside.prependElement (.instruction isMnemonic opens areOperands closes)
    simpa using whole
  next opens =>
    cases steps
    obtain ⟨inner, rails, closing, after, rfl, areRails, closes, outside⟩ := follows
    have whole := outside.prependElement (.branch opens areRails closes)
    simpa using whole
  next branch outer separates isOpen =>
    obtain rfl : opened = branch :: outer := isOpen
    cases steps
    obtain ⟨inner, rails, closing, after, rfl, areRails, closes, outside⟩ := follows
    exact ⟨token :: inner, [] :: rails, closing, after, rfl, .further .nil separates areRails,
      closes, outside⟩
  next branch outer closes isOpen =>
    obtain rfl : opened = branch :: outer := isOpen
    cases steps
    exact ⟨[], [[]], token, rest, rfl, .last .nil, closes, follows⟩
  next ends isOpen =>
    obtain rfl : opened = [] := isOpen
    cases steps
    obtain rfl : rest = [] := follows
    exact ⟨[], .closed .nil ends⟩
  next => cases steps
  next => cases steps

theorem OperandState.follows_of_step {state : OperandState} (steps : state.step token = .ok next)
    (follows : Follows next rest) :
    OperandsFollow state.rail.openBranches.length state.depth (token :: rest) := by
  obtain ⟨rail, mnemonic, operands, operand, depth⟩ := state
  unfold OperandState.step at steps
  split at steps
  next isText =>
    cases steps
    exact OperandsFollow.prependText isText follows
  next opens =>
    cases steps
    obtain ⟨inner, _, _, _, closing, after, rfl, areEnclosed, closes, outside⟩ := follows
    have outside : OperandsFollow rail.openBranches.length depth after := outside
    have whole := outside.prependGroup (.enclosing opens areEnclosed closes)
    simpa using whole
  next separates isDepth =>
    obtain rfl : depth = 0 := isDepth
    cases steps
    obtain ⟨inner, operands, closing, after, rfl, areOperands, closes, outside⟩ := follows
    exact ⟨token :: inner, ⟨[], []⟩ :: operands, closing, after, rfl,
      .further .nil separates areOperands, closes, outside⟩
  next outer separates isDepth =>
    obtain rfl : depth = outer + 1 := isDepth
    cases steps
    exact OperandsFollow.prependSeparator separates (Nat.succ_ne_zero _) follows
  next closes isDepth =>
    obtain rfl : depth = 0 := isDepth
    cases steps
    exact ⟨[], [⟨[], []⟩], token, rest, rfl, .last .nil, closes, follows⟩
  next outer closes isDepth =>
    obtain rfl : depth = outer + 1 := isDepth
    cases steps
    exact ⟨[], [], [], [], token, rest, rfl, .nil, closes, follows⟩
  next => cases steps

theorem follows_of_step {state : ReadState} (steps : state.step token = .ok next)
    (follows : Follows next rest) : Follows state (token :: rest) := by
  cases state with
  | onRail rail => exact rail.follows_of_step steps follows
  | afterMnemonic rail mnemonic =>
      simp only [ReadState.step] at steps
      split_ifs at steps with opens
      cases steps
      exact ⟨token, rest, rfl, opens, follows⟩
  | inOperands state => exact state.follows_of_step steps follows
  | finished own => cases steps

end Steps

theorem follows_of_run {state final : ReadState} {tokens : List Token} {nodes : List Node}
    (runs : state.run tokens = .ok final) (finishes : final.finish = .ok nodes) :
    Follows state tokens := by
  induction tokens generalizing state with
  | nil =>
      cases runs
      unfold ReadState.finish at finishes
      split at finishes
      next => exact ⟨[], .unclosed .nil⟩
      next => cases finishes
      next => cases finishes
      next => cases finishes
      next => rfl
  | cons token rest ih =>
      obtain ⟨next, steps, runsOn⟩ := ReadState.exists_of_run_cons runs
      exact follows_of_step steps (ih runsOn)

/-! ### Tokens of a text -/

theorem le_offset_of_mem_cons {offset length : Nat} {first token : Token} {rest : List Lexeme}
    (starts : first.offset = offset)
    (later : .token token ∈ rest → offset + length ≤ token.offset)
    (member : .token token ∈ .token first :: rest) : offset ≤ token.offset := by
  rcases List.mem_cons.mp member with same | behind
  · rw [Lexeme.token.inj same, starts]
  · exact (Nat.le_add_right offset length).trans (later behind)

theorem le_offset_of_mem_scan {depth offset : Nat} {chars : List Char} {token : Token}
    (member : .token token ∈ scan depth offset chars) : offset ≤ token.offset := by
  fun_induction scan depth offset chars with
  | case1 => cases member
  | case2 offset char rest space ih => exact (Nat.le_add_right _ _).trans (ih member)
  | case3 offset char rest space starts image ih => exact le_offset_of_mem_cons rfl ih member
  | case4 offset char rest space starts kind punctuates ih =>
      exact le_offset_of_mem_cons rfl ih member
  | case5 offset char rest space starts punctuates run ih =>
      rcases List.mem_cons.mp member with same | later
      · cases same
      · exact (Nat.le_add_right _ _).trans (ih later)
  | case6 depth offset char rest within kind punctuates ih =>
      exact le_offset_of_mem_cons rfl ih member
  | case7 depth offset char rest within punctuates image ih =>
      exact le_offset_of_mem_cons rfl ih member

/-- A token stands in front of what is scanned behind it. -/
theorem Ascend.cons {token : Token} {depth next : Nat} {chars : List Char}
    (before : token.offset < next)
    (ascend : Ascend ((scan depth next chars).filterMap Lexeme.token?)) :
    Ascend (token :: (scan depth next chars).filterMap Lexeme.token?) := by
  refine List.pairwise_cons.mpr ⟨fun later member => ?_, ascend⟩
  obtain ⟨lexeme, isLexeme, isToken⟩ := List.mem_filterMap.mp member
  cases lexeme with
  | token found =>
      obtain rfl := Option.some.inj isToken
      exact before.trans_le (le_offset_of_mem_scan isLexeme)
  | unexpected first offset length => cases isToken

theorem lt_add_unitLength (offset : Nat) (char : Char) (rest : List Char) :
    offset < offset + Text.unitLength (char :: rest) := by
  have positive := Text.unitCount_pos char
  rw [Text.unitLength_cons]
  omega

/-- The tokens of a text stand in it one behind the other. -/
theorem ascend_scan (depth offset : Nat) (chars : List Char) :
    Ascend ((scan depth offset chars).filterMap Lexeme.token?) := by
  fun_induction scan depth offset chars with
  | case1 => exact .nil
  | case2 offset char rest space ih => exact ih
  | case3 offset char rest space starts image ih =>
      exact Ascend.cons (lt_add_unitLength offset char _) ih
  | case4 offset char rest space starts kind punctuates ih =>
      exact Ascend.cons (Nat.lt_add_of_pos_right (Text.unitCount_pos char)) ih
  | case5 offset char rest space starts punctuates run ih => exact ih
  | case6 depth offset char rest within kind punctuates ih =>
      exact Ascend.cons (Nat.lt_add_of_pos_right (Text.unitCount_pos char)) ih
  | case7 depth offset char rest within punctuates image ih =>
      exact Ascend.cons (lt_add_unitLength offset char _) ih

/--
Tokens in the order of a text are read if they have a tree, and only then, and the nodes are
those of the tree.
-/
theorem readTokens_iff {tokens : List Token} (ascend : Ascend tokens) (nodes : List Node) :
    readTokens tokens = .ok nodes ↔
      ∃ elements, IsRungTree tokens elements ∧ elementNodes elements = nodes := by
  constructor
  · intro reads
    obtain ⟨elements, isRung⟩ : ∃ elements, IsRungTree tokens elements := by
      unfold readTokens at reads
      split at reads
      next final runs => exact follows_of_run runs reads
      next => cases reads
    have readsTree := readTokens_of_isRungTree isRung ascend
    exact ⟨elements, isRung, Except.ok.inj (readsTree.symm.trans reads)⟩
  · rintro ⟨elements, isRung, rfl⟩
    exact readTokens_of_isRungTree isRung ascend

/--
A text is read if it consists of tokens that have a tree in the grammar of rungs, and only then,
and the nodes are those of the tree.
-/
theorem parse_iff_isRungTree (text : String) (nodes : List Node) :
    parse text = .ok nodes ↔ ∃ tokens elements, lexemes text.toList = tokens.map Lexeme.token ∧
      IsRungTree tokens elements ∧ elementNodes elements = nodes := by
  constructor
  · intro parses
    have ascend : Ascend ((lexemes text.toList).filterMap Lexeme.token?) := ascend_scan 0 0 _
    simp only [parse, parseChars] at parses
    split at parses
    next reads noFault =>
      cases parses
      obtain ⟨elements, isRung, same⟩ := (readTokens_iff ascend nodes).mp reads
      exact ⟨_, elements, eq_map_token noFault, isRung, same⟩
    next => cases parses
    next => cases parses
  · rintro ⟨tokens, elements, scans, isRung, same⟩
    have ascend : Ascend ((lexemes text.toList).filterMap Lexeme.token?) := ascend_scan 0 0 _
    rw [scans, filterMap_map_token] at ascend
    exact parse_of_lexemes scans ((readTokens_iff ascend nodes).mpr ⟨elements, isRung, same⟩)

end RungText
end LadderDiagram
