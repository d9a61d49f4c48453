import LadderDiagram.Text.UppercaseTable

/-!
# Upper-casing

Full upper-casing of text: one character may become several, and characters
outside ASCII follow the Unicode tables.
-/

namespace LadderDiagram
namespace Text

/-- The upper-case form of a character, one or more characters long. -/
def upperChar (char : Char) : List Char :=
  if char.toNat < 0x80 then [char.toUpper]
  else
    match caseExpansions.find? (·.1 == char.toNat) with
    | some (_, codes) => codes.map Char.ofNat
    | none => [(shift? caseRuns char).getD char]

def upperChars (chars : List Char) : List Char :=
  chars.flatMap upperChar

def upper (text : String) : String :=
  String.ofList (upperChars text.toList)

end Text
end LadderDiagram
