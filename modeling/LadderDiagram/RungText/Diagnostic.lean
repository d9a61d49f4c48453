import LadderDiagram.RungText.Token
import LadderDiagram.Json.Basic

/-!
# Diagnostics of rung text

Why a text is no rung text, and where.  A token that is not the one needed is
reported where it starts; at the end of the text there is no such place.
-/

namespace LadderDiagram
namespace RungText

/-- One fault of a rung text. -/
inductive Diagnostic
  /-- A run of characters with which no token starts. -/
  | unexpected (first : Char) (offset length : Nat)
  /-- A token of one kind was needed, another one or none was there. -/
  | expected (kind : TokenKind) (found : Option Token)
  /-- The rung was complete before this token. -/
  | redundant (found : Token)
  deriving DecidableEq, Repr

namespace Diagnostic

/-- The text that a diagnostic quotes for a token, empty at the end of the text. -/
def imageText : Option Token → String
  | some found => String.ofList found.image
  | none => ""

def message : Diagnostic → String
  | .unexpected first offset length =>
      "unexpected character: ->" ++ String.ofList [Text.firstUnit first] ++
        "<- at offset: " ++ toString offset ++ ", skipped " ++ toString length ++
        " characters."
  | .expected kind found =>
      "Expecting token of type --> " ++ kind.name ++ " <-- but found --> '" ++
        imageText found ++ "' <--"
  | .redundant found =>
      "Redundant input, expecting EOF but found: " ++ imageText (some found)

/-- The extent of a fault: only an unexpected run has an end of its own. -/
def extent : Diagnostic → List (String × Json)
  | .unexpected _ offset length =>
      [("startOffset", .ofNat offset), ("endOffset", .ofNat (offset + length))]
  | .expected _ (some found) => [("startOffset", .ofNat found.offset)]
  | .expected _ none => [("startOffset", .null), ("endOffset", .null)]
  | .redundant found => [("startOffset", .ofNat found.offset)]

def toJson (diagnostic : Diagnostic) : Json :=
  .obj (("message", .str diagnostic.message) :: diagnostic.extent)

/-- The fault that a lexeme is, unless it is a token. -/
def ofLexeme? : Lexeme → Option Diagnostic
  | .token _ => none
  | .unexpected first offset length => some (.unexpected first offset length)

end Diagnostic
end RungText
end LadderDiagram
