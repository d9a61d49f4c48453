import LadderDiagram.Text.Units

/-!
# Tokens of rung text

Rung text is read in two modes.  Outside parentheses it consists of mnemonics,
brackets, commas and semicolons between white space; an opening parenthesis
enters the operand mode, in which everything but parentheses and commas is
operand text.  Parentheses nest, so the operand mode is left when the last of
them is closed.  Outside parentheses a run of characters that start no token is
one unexpected lexeme, and reading goes on after it.
-/

namespace LadderDiagram
namespace RungText

/-- The kinds of tokens. -/
inductive TokenKind
  | mnemonic
  | leftParenthesis
  | rightParenthesis
  | leftBracket
  | rightBracket
  | comma
  | semicolon
  | operandSeparator
  | operandText
  deriving DecidableEq, Repr

def TokenKind.name : TokenKind → String
  | .mnemonic => "Mnemonic"
  | .leftParenthesis => "LParen"
  | .rightParenthesis => "RParen"
  | .leftBracket => "LBracket"
  | .rightBracket => "RBracket"
  | .comma => "Comma"
  | .semicolon => "Semicolon"
  | .operandSeparator => "OperandSeparator"
  | .operandText => "OperandText"

/-- A token with the text it covers and the offset of its first unit. -/
structure Token where
  kind : TokenKind
  image : List Char
  offset : Nat
  deriving DecidableEq, Repr

/-- A piece of rung text: a token, or a run in which no token can start. -/
inductive Lexeme
  | token (token : Token)
  | unexpected (first : Char) (offset length : Nat)
  deriving DecidableEq, Repr

def isSpace (char : Char) : Bool :=
  char == ' ' || char == '\t' || char == '\r' || char == '\n'

def startsMnemonic (char : Char) : Bool :=
  char.isAlpha || char == '_'

def continuesMnemonic (char : Char) : Bool :=
  char.isAlphanum || char == '_'

/-- The punctuation outside parentheses. -/
def rungPunctuation? (char : Char) : Option TokenKind :=
  if char == '(' then some .leftParenthesis
  else if char == '[' then some .leftBracket
  else if char == ']' then some .rightBracket
  else if char == ',' then some .comma
  else if char == ';' then some .semicolon
  else none

/-- The punctuation inside parentheses. -/
def operandPunctuation? (char : Char) : Option TokenKind :=
  if char == '(' then some .leftParenthesis
  else if char == ')' then some .rightParenthesis
  else if char == ',' then some .operandSeparator
  else none

/-- A character outside parentheses with which neither space nor a token starts. -/
def isUnexpected (char : Char) : Bool :=
  !isSpace char && !startsMnemonic char && (rungPunctuation? char).isNone

def isOperandText (char : Char) : Bool :=
  (operandPunctuation? char).isNone

def depthAfter (depth : Nat) : TokenKind → Nat
  | .leftParenthesis => depth + 1
  | .rightParenthesis => depth - 1
  | _ => depth

theorem length_dropWhile_le {α : Type} (keep : α → Bool) (items : List α) :
    (items.dropWhile keep).length ≤ items.length :=
  (List.dropWhile_sublist keep).length_le

/--
The lexemes of a text that starts at `offset` under `depth` open parentheses,
left to right, each as long as it can be.
-/
def scan (depth offset : Nat) : List Char → List Lexeme
  | [] => []
  | char :: rest =>
      if depth = 0 then
        if isSpace char then scan 0 (offset + Text.unitCount char) rest
        else if startsMnemonic char then
          let image := char :: rest.takeWhile continuesMnemonic
          .token ⟨.mnemonic, image, offset⟩ ::
            scan 0 (offset + Text.unitLength image) (rest.dropWhile continuesMnemonic)
        else
          match rungPunctuation? char with
          | some kind =>
              .token ⟨kind, [char], offset⟩ ::
                scan (depthAfter 0 kind) (offset + Text.unitCount char) rest
          | none =>
              let run := char :: rest.takeWhile isUnexpected
              .unexpected char offset (Text.unitLength run) ::
                scan 0 (offset + Text.unitLength run) (rest.dropWhile isUnexpected)
      else
        match operandPunctuation? char with
        | some kind =>
            .token ⟨kind, [char], offset⟩ ::
              scan (depthAfter depth kind) (offset + Text.unitCount char) rest
        | none =>
            let image := char :: rest.takeWhile isOperandText
            .token ⟨.operandText, image, offset⟩ ::
              scan depth (offset + Text.unitLength image) (rest.dropWhile isOperandText)
termination_by chars => chars.length
decreasing_by
  all_goals simp only [List.length_cons]
  all_goals
    first
    | exact Nat.lt_succ_self _
    | exact Nat.lt_succ_of_le (length_dropWhile_le _ _)

def lexemes (text : List Char) : List Lexeme := scan 0 0 text

def Lexeme.token? : Lexeme → Option Token
  | .token found => some found
  | .unexpected .. => none

end RungText
end LadderDiagram
