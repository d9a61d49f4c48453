import LadderDiagram.Text.Line

/-!
# References

Characters that would read as markup are written as references.  Reading
replaces the five named ones and their numbered forms; any other reference is
left as it is written.  What writing escapes, reading decodes.  A document may
hold only so many references, those to the ampersand not counted.
-/

namespace LadderDiagram
namespace Xml

/-- What follows the ampersand of each reference, with the character meant. -/
def references : List (String × Char) :=
  [("apos;", '\''), ("#39;", '\''), ("#x27;", '\''),
    ("gt;", '>'), ("#62;", '>'), ("#x3E;", '>'),
    ("lt;", '<'), ("#60;", '<'), ("#x3C;", '<'),
    ("quot;", '"'), ("#34;", '"'), ("#x22;", '"'),
    ("amp;", '&'), ("#38;", '&'), ("#x26;", '&')]

/-- The character of a reference whose ampersand has been read, and what follows it. -/
def takeReference (chars : List Char) : Option (Char × List Char) :=
  (references.find? fun (written, _) => written.toList.isPrefixOf chars).map
    fun (written, char) => (char, chars.drop written.length)

theorem length_after_reference {chars after : List Char} {char : Char}
    (found : takeReference chars = some (char, after)) : after.length ≤ chars.length := by
  obtain ⟨_, _, eq⟩ := Option.map_eq_some_iff.1 found
  obtain ⟨_, rfl⟩ := Prod.mk.inj eq
  simp

/-- A text with its references replaced, each of them once. -/
def decode : List Char → List Char
  | [] => []
  | char :: rest =>
      if char == '&' then
        match _found : takeReference rest with
        | some (decoded, after) => decoded :: decode after
        | none => char :: decode rest
      else char :: decode rest
termination_by chars => chars.length
decreasing_by
  · exact Nat.lt_succ_of_le (length_after_reference _found)
  all_goals simp

def referred : List Char → List Char
  | [] => []
  | char :: rest =>
      if char == '&' then
        match _found : takeReference rest with
        | some (decoded, after) => decoded :: referred after
        | none => referred rest
      else referred rest
termination_by chars => chars.length
decreasing_by
  · exact Nat.lt_succ_of_le (length_after_reference _found)
  all_goals simp

/-- The characters whose references are counted, in the order in which they are. -/
def countedChars : List Char := ['\'', '>', '<', '"']

/-- The number of counted references that a document may hold. -/
def mostReferences : Nat := 1000

/--
The number of references after a text, where some have been counted before it.
The references to one character are counted together, and the first number
beyond the limit is the error.
-/
def countReferences (before : Nat) (chars : List Char) : Except Nat Nat :=
  let meant := referred chars
  countedChars.foldlM
    (fun count char =>
      let total := count + meant.count char
      if mostReferences < total then .error total else .ok total)
    before

/-- The written form of a character within quotes. -/
def escapeChar : Char → List Char
  | '&' => "&amp;".toList
  | '>' => "&gt;".toList
  | '<' => "&lt;".toList
  | '\'' => "&apos;".toList
  | '"' => "&quot;".toList
  | char => [char]

/-- A text as it is written within quotes. -/
def escape (chars : List Char) : List Char := chars.flatMap escapeChar

end Xml
end LadderDiagram
