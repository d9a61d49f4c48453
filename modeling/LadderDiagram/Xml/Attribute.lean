import LadderDiagram.Text.Blank
import LadderDiagram.Text.Line
import LadderDiagram.Text.Range

/-!
# Names and attributes

The names of tags and attributes are a letter, an underscore or a colon, and after
it also digits, points, hyphens and combining marks.

The text behind a tag's name is a list of names with quoted values.  The check
of a document looks at every name with the signs around it and reports the
first that is not written as an attribute; reading keeps the names that have a
value and passes over everything else.
-/

namespace LadderDiagram
namespace Xml

/-! ### Names -/

/-- The letters beyond ASCII with which a name may start. -/
def letterRanges : List (Nat × Nat) :=
  [(0xC0, 0xD6), (0xD8, 0xF6), (0xF8, 0x2FF), (0x370, 0x37D), (0x37F, 0x1FFF),
    (0x200C, 0x200D), (0x2070, 0x218F), (0x2C00, 0x2FEF), (0x3001, 0xD7FF),
    (0xF900, 0xFDCF), (0xFDF0, 0xFFFD)]

/-- The signs beyond ASCII with which a name may go on but not start. -/
def markRanges : List (Nat × Nat) :=
  [(0xB7, 0xB7), (0x300, 0x36F), (0x203F, 0x2040)]

def startsName (char : Char) : Bool :=
  char.isAlpha || char == '_' || char == ':' || Text.isWithin letterRanges char

def continuesName (char : Char) : Bool :=
  startsName char || char.isDigit || char == '-' || char == '.' ||
    Text.isWithin markRanges char

def isName : List Char → Bool
  | [] => false
  | first :: rest => startsName first && rest.all continuesName

/-- White space between the parts of a document. -/
def isSpace (char : Char) : Bool :=
  char == ' ' || char == '\t' || char == '\n' || char == '\r'

/-! ### Attributes -/

/-- A character that belongs to an attribute's name, whether it may or not. -/
def inAttributeName (char : Char) : Bool := !Text.isBlank char && char != '='

/-- A quoted value in front of a text, and what follows it. -/
def takeQuoted (chars : List Char) : Option (List Char × List Char) :=
  match Text.trimStart chars with
  | quote :: rest =>
      if quote == '"' || quote == '\'' then Text.splitAtMark [quote] rest else none
  | [] => none

theorem length_after_quoted {chars value after : List Char}
    (found : takeQuoted chars = some (value, after)) : after.length ≤ chars.length := by
  have shorter := Text.length_dropWhile_le Text.isBlank chars
  unfold takeQuoted at found
  split at found
  next quote rest eq =>
    split at found
    · have := Text.length_after_mark found
      unfold Text.trimStart at eq
      rw [eq] at shorter
      simp only [List.length_cons] at shorter
      omega
    · simp at found
  next => simp at found

/-! ### Checking -/

/-- A name in the text behind a tag's name, with what is written around it. -/
structure WrittenAttribute where
  name : List Char
  spaced : Bool
  equated : Bool
  valued : Bool
  /-- What is left of the text at the name. -/
  place : List Char

/-- What follows an equals sign, if one is next after blanks. -/
def takeEquals (chars : List Char) : Option (List Char) :=
  match Text.trimStart chars with
  | '=' :: rest => some rest
  | _ => none

theorem length_after_equals {chars after : List Char}
    (found : takeEquals chars = some after) : after.length ≤ chars.length := by
  have shorter := Text.length_dropWhile_le Text.isBlank chars
  unfold takeEquals Text.trimStart at found
  split at found
  next rest eq =>
    rw [eq] at shorter
    obtain rfl := Option.some.inj found
    simp only [List.length_cons] at shorter
    omega
  next => simp at found

/-- What follows an equals sign that may be next, and otherwise the whole text. -/
def afterEquals (chars : List Char) : List Char := (takeEquals chars).getD chars

/-- What follows a quoted value that may be next, and otherwise the whole text. -/
def afterQuoted (chars : List Char) : List Char :=
  ((takeQuoted chars).map (·.2)).getD chars

theorem length_afterEquals_le (chars : List Char) :
    (afterEquals chars).length ≤ chars.length := by
  unfold afterEquals
  cases found : takeEquals chars with
  | none => simp
  | some after => simpa using length_after_equals found

theorem length_afterQuoted_le (chars : List Char) :
    (afterQuoted chars).length ≤ chars.length := by
  unfold afterQuoted
  cases found : takeQuoted chars with
  | none => simp
  | some parts => simpa using @length_after_quoted chars parts.1 parts.2 found

theorem length_trimStart_le (chars : List Char) :
    (Text.trimStart chars).length ≤ chars.length :=
  Text.length_dropWhile_le Text.isBlank chars

/-- The names in the text behind a tag's name, left to right. -/
def writtenAttributes (chars : List Char) : List WrittenAttribute :=
  match _start : Text.trimStart chars with
  | [] => []
  | first :: more =>
      if first == '=' then writtenAttributes more
      else
        { name := first :: more.takeWhile inAttributeName
          spaced := chars.length != (first :: more).length
          equated := (takeEquals (more.dropWhile inAttributeName)).isSome
          valued := (takeQuoted (afterEquals (more.dropWhile inAttributeName))).isSome
          place := first :: more } ::
          writtenAttributes (afterQuoted (afterEquals (more.dropWhile inAttributeName)))
termination_by chars.length
decreasing_by
  · have shorter := length_trimStart_le chars
    rw [_start] at shorter
    exact shorter
  · have shorter := length_trimStart_le chars
    rw [_start] at shorter
    have nameEnd := Text.length_dropWhile_le inAttributeName more
    have equalsEnd := length_afterEquals_le (more.dropWhile inAttributeName)
    have valueEnd := length_afterQuoted_le (afterEquals (more.dropWhile inAttributeName))
    simp only [List.length_cons] at shorter
    omega

theorem writtenAttributes_nil : writtenAttributes [] = [] := by
  unfold writtenAttributes
  rfl

/-- Why a name is not written as an attribute. -/
inductive AttributeFault
  | notSpaced
  | withoutValue
  | withoutEquals
  | badName
  | repeated
  deriving DecidableEq, Repr

def AttributeFault.message (name : String) : AttributeFault → String
  | .notSpaced => "Attribute '" ++ name ++ "' has no space in starting."
  | .withoutValue => "Attribute '" ++ name ++ "' is without value."
  | .withoutEquals => "boolean attribute '" ++ name ++ "' is not allowed."
  | .badName => "Attribute '" ++ name ++ "' is an invalid name."
  | .repeated => "Attribute '" ++ name ++ "' is repeated."

/-- What is wrong with a name that comes after some others. -/
def WrittenAttribute.fault? (seen : List (List Char)) (written : WrittenAttribute) :
    Option AttributeFault :=
  if !written.spaced then some .notSpaced
  else if written.equated && !written.valued then some .withoutValue
  else if !written.equated then some .withoutEquals
  else if !isName written.name then some .badName
  else if seen.contains written.name then some .repeated
  else none

def firstFault (seen : List (List Char)) :
    List WrittenAttribute → Option (AttributeFault × WrittenAttribute)
  | [] => none
  | written :: rest =>
      match written.fault? seen with
      | some fault => some (fault, written)
      | none => firstFault (written.name :: seen) rest

/-! ### Reading -/

/-- A quoted value behind an equals sign, after blanks, and what follows it. -/
def takeValue (chars : List Char) : Option (List Char × List Char) :=
  (takeEquals chars).bind takeQuoted

theorem length_after_value {chars value after : List Char}
    (found : takeValue chars = some (value, after)) : after.length ≤ chars.length := by
  obtain ⟨equated, first, second⟩ := Option.bind_eq_some_iff.1 found
  have := length_after_equals first
  have := length_after_quoted second
  omega

/-- The names that have a quoted value, with their values as they are written. -/
def rawAttributes : List Char → List (List Char × List Char)
  | [] => []
  | first :: more =>
      if inAttributeName first then
        match _found : takeValue (more.dropWhile inAttributeName) with
        | some (value, after) =>
            (first :: more.takeWhile inAttributeName, value) :: rawAttributes after
        | none => rawAttributes (more.dropWhile inAttributeName)
      else rawAttributes more
termination_by chars => chars.length
decreasing_by
  · have nameEnd := Text.length_dropWhile_le inAttributeName more
    have valueEnd := length_after_value _found
    simp only [List.length_cons]
    omega
  · have nameEnd := Text.length_dropWhile_le inAttributeName more
    simp only [List.length_cons]
    omega
  · simp

theorem rawAttributes_nil : rawAttributes [] = [] := by
  unfold rawAttributes
  rfl

end Xml
end LadderDiagram
